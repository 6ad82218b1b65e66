import Mathlib.Data.List.Induction
import Upnp.Yaml.Value

/-
Values of documents and the entries of mappings. Equality as keys holds between each value and itself, also
where numbers are no numbers; in a mapping whose keys all differ, every entry is found under its key, and
putting it in again changes nothing.
-/

namespace Upnp.Yaml

/-! ## Values by what they hold -/

/-- What holds of a collection as soon as it holds of all that is in it, holds of every value. -/
theorem Value.induction {P : Value → Prop} (null : P .null) (bool : ∀ b, P (.bool b)) (number : ∀ n, P (.number n))
    (string : ∀ s, P (.string s)) (sequence : ∀ items, (∀ v ∈ items, P v) → P (.sequence items))
    (mapping : ∀ entries : Entries, (∀ e ∈ entries, P e.1 ∧ P e.2) → P (.mapping entries))
    (tagged : ∀ name v, P v → P (.tagged name v)) : ∀ v, P v :=
  @Value.rec P (fun items => ∀ v ∈ items, P v) (fun entries => ∀ e ∈ entries, P e.1 ∧ P e.2)
    (fun e => P e.1 ∧ P e.2) null bool number string sequence mapping tagged
    (fun _ h => absurd h List.not_mem_nil) (fun _ _ hv hvs => List.forall_mem_cons.2 ⟨hv, hvs⟩)
    (fun _ h => absurd h List.not_mem_nil) (fun _ _ he hes => List.forall_mem_cons.2 ⟨he, hes⟩)
    fun _ _ hk hv => ⟨hk, hv⟩

/-- Where sequences are taken as a whole, what counts is whether a value is a mapping. -/
theorem Value.mapping_induction {P : Value → Prop} (leaf : ∀ v, (∀ entries, v ≠ .mapping entries) → P v)
    (mapping : ∀ entries : Entries, (∀ e ∈ entries, P e.2) → P (.mapping entries)) (v : Value) : P v := by
  induction v using Value.induction with
  | mapping entries ih => exact mapping entries fun e he => (ih e he).2
  | _ => exact leaf _ fun entries h => nomatch h

/-- The value is neither a collection nor behind a tag. -/
def Value.IsScalar : Value → Prop
  | .null | .bool _ | .number _ | .string _ => True
  | .sequence _ | .mapping _ | .tagged _ _ => False

/-! ## Equality of keys -/

theorem Number.same_refl (n : Number) : n.same n = true := by
  cases n with
  | int n => exact beq_self_eq_true n
  | real x =>
    show (x == x || _ || _) = true
    rw [beq_self_eq_true, Bool.true_or, Bool.true_or]

theorem sameItems_refl {items : List Value} (h : ∀ v ∈ items, v.same v = true) : sameItems items items = true := by
  induction items with
  | nil => rw [sameItems]
  | cons v items ih =>
    rw [sameItems, h v List.mem_cons_self, ih fun w hw => h w (List.mem_cons_of_mem v hw), Bool.and_self]

theorem sameEntries_of_subset {es all : Entries} (h : ∀ e ∈ es, e.1.same e.1 = true ∧ e.2.same e.2 = true)
    (hsub : es ⊆ all) : sameEntries es all = true := by
  induction es with
  | nil => rw [sameEntries]
  | cons e es ih =>
    obtain ⟨hk, hv⟩ := h e List.mem_cons_self
    have hself : sameEntry e e = true := by
      rw [sameEntry, hk, hv, Bool.and_self]
    rw [sameEntries, List.any_eq_true.2 ⟨e, hsub List.mem_cons_self, hself⟩,
      ih (fun d hd => h d (List.mem_cons_of_mem e hd)) fun d hd => hsub (List.mem_cons_of_mem e hd), Bool.and_self]

theorem Value.same_refl (v : Value) : v.same v = true := by
  induction v using Value.induction with
  | null => rw [Value.same]
  | bool b => rw [Value.same, beq_self_eq_true]
  | number n => rw [Value.same, n.same_refl]
  | string s => rw [Value.same, beq_self_eq_true]
  | sequence items ih => rw [Value.same, sameItems_refl ih]
  | mapping entries ih =>
    rw [Value.same, beq_self_eq_true, Bool.true_and, sameEntries_of_subset ih (List.Subset.refl _)]
  | tagged name v ih => rw [Value.same, beq_self_eq_true, ih, Bool.and_self]

/-- A string is the same key as a string only. -/
theorem Value.string_same {v : Value} {s : String} : (Value.string s).same v = true ↔ v = .string s := by
  cases v with
  | string t => rw [Value.same, beq_iff_eq, Value.string.injEq, eq_comm]
  | _ => simp [Value.same]

/-! ## Entries -/

namespace Entries

/-- No key is there twice. -/
def Distinct (es : Entries) : Prop :=
  es.Pairwise fun a b => a.1.same b.1 = false

theorem find?_append (key : Value) (xs ys : Entries) : find? key (xs ++ ys) = (find? key xs).or (find? key ys) := by
  induction xs with
  | nil => rfl
  | cons x xs ih =>
    rw [List.cons_append, find?, find?]
    split
    · rfl
    · exact ih

theorem find?_eq_none {key : Value} {es : Entries} : find? key es = none ↔ ∀ e ∈ es, e.1.same key = false := by
  induction es with
  | nil => exact iff_of_true rfl fun e he => absurd he List.not_mem_nil
  | cons e es ih =>
    rw [find?, List.forall_mem_cons, ← ih]
    cases e.1.same key with
    | true => exact iff_of_false (Option.some_ne_none _) fun h => Bool.noConfusion h.1
    | false => exact (and_iff_right rfl).symm

theorem exists_mem_of_find? {key value : Value} {es : Entries} (h : find? key es = some value) :
    ∃ k, (k, value) ∈ es := by
  induction es with
  | nil => cases h
  | cons e es ih =>
    rw [find?] at h
    split at h
    · exact ⟨e.1, Option.some.inj h ▸ List.mem_cons_self⟩
    · obtain ⟨k, hk⟩ := ih h
      exact ⟨k, List.mem_cons_of_mem e hk⟩

theorem put_append {key : Value} {xs : Entries} (h : find? key xs = none) (value : Value) (ys : Entries) :
    put key value (xs ++ ys) = xs ++ put key value ys := by
  induction xs with
  | nil => rfl
  | cons x xs ih =>
    obtain ⟨hx, hxs⟩ := List.forall_mem_cons.1 (find?_eq_none.1 h)
    rw [List.cons_append, put, hx, if_neg Bool.false_ne_true, ih (find?_eq_none.2 hxs)]
    rfl

theorem put_of_find?_eq_none {key : Value} {es : Entries} (h : find? key es = none) (value : Value) :
    put key value es = es ++ [(key, value)] := by
  have hput := put_append h value []
  rwa [List.append_nil] at hput

theorem find?_cons_self (key value : Value) (es : Entries) : find? key ((key, value) :: es) = some value := by
  rw [find?, key.same_refl]
  rfl

theorem put_cons_self (key value other : Value) (es : Entries) :
    put key value ((key, other) :: es) = (key, value) :: es := by
  rw [put, key.same_refl]
  rfl

theorem ofList_concat (es : Entries) (e : Value × Value) : ofList (es ++ [e]) = put e.1 e.2 (ofList es) :=
  List.foldl_append ..

/-- Entries of different keys are what putting them one by one comes to. -/
theorem ofList_of_distinct {es : Entries} (h : es.Distinct) : ofList es = es := by
  induction es using List.reverseRecOn with
  | nil => rfl
  | append_singleton es e ih =>
    obtain ⟨hes, -, hlast⟩ := List.pairwise_append.1 h
    have hnone : find? e.1 es = none := find?_eq_none.2 fun d hd => hlast d hd e (List.mem_singleton_self e)
    rw [ofList_concat, ih hes, put_of_find?_eq_none hnone]

/-- An entry that is put changes the first one of its key, or comes behind all others. -/
theorem put_cases (key value : Value) (es : Entries) :
    (find? key es = none ∧ put key value es = es ++ [(key, value)]) ∨
      ∃ xs k old ys, es = xs ++ (k, old) :: ys ∧ k.same key = true ∧ find? key xs = none ∧
        put key value es = xs ++ (k, value) :: ys := by
  cases h : find? key es with
  | none => exact .inl ⟨rfl, put_of_find?_eq_none h value⟩
  | some old =>
    right
    induction es with
    | nil => cases h
    | cons e es ih =>
      obtain ⟨k, v⟩ := e
      rw [find?] at h
      split at h
      · rename_i hk
        exact ⟨[], k, v, es, rfl, hk, rfl, by rw [put, if_pos hk]; rfl⟩
      · rename_i hk
        obtain ⟨xs, k', old', ys, rfl, hk', hxs, hput⟩ := ih h
        refine ⟨(k, v) :: xs, k', old', ys, rfl, hk', ?_, ?_⟩
        · rw [find?, if_neg hk, hxs]
        · rw [put, if_neg hk, hput]
          rfl

/-- Whether keys differ is not a matter of the values. -/
theorem Distinct.of_keys {es ds : Entries} (h : es.Distinct) (hk : ds.map Prod.fst = es.map Prod.fst) :
    ds.Distinct := by
  have hkeys : (es.map Prod.fst).Pairwise fun a b => a.same b = false := List.pairwise_map.2 h
  rw [← hk] at hkeys
  exact List.pairwise_map.1 hkeys

theorem Distinct.put {es : Entries} (h : es.Distinct) (key value : Value) : (put key value es).Distinct := by
  rcases put_cases key value es with ⟨hnone, hput⟩ | ⟨xs, k, old, ys, rfl, -, -, hput⟩
  · rw [hput]
    refine List.pairwise_append.2 ⟨h, List.pairwise_singleton _ _, fun a ha b hb => ?_⟩
    rw [List.mem_singleton.1 hb]
    exact find?_eq_none.1 hnone a ha
  · rw [hput]
    refine h.of_keys ?_
    rw [List.map_append, List.map_append, List.map_cons, List.map_cons]

/-- Putting an entry brings in no other key and no other value. -/
theorem mem_put {key value : Value} {es : Entries} {e : Value × Value} (he : e ∈ put key value es) :
    (e.1 = key ∨ ∃ d ∈ es, e.1 = d.1) ∧ (e.2 = value ∨ ∃ d ∈ es, e.2 = d.2) := by
  rcases put_cases key value es with ⟨-, hput⟩ | ⟨xs, k, old, ys, rfl, -, -, hput⟩
  · rw [hput] at he
    rcases List.mem_append.1 he with he | he
    · exact ⟨.inr ⟨e, he, rfl⟩, .inr ⟨e, he, rfl⟩⟩
    · rw [List.mem_singleton.1 he]
      exact ⟨.inl rfl, .inl rfl⟩
  · rw [hput, List.mem_append, List.mem_cons] at he
    simp only [List.mem_append, List.mem_cons]
    rcases he with he | rfl | he
    · exact ⟨.inr ⟨e, .inl he, rfl⟩, .inr ⟨e, .inl he, rfl⟩⟩
    · exact ⟨.inr ⟨(k, old), .inr (.inl rfl), rfl⟩, .inl rfl⟩
    · exact ⟨.inr ⟨e, .inr (.inr he), rfl⟩, .inr ⟨e, .inr (.inr he), rfl⟩⟩

theorem distinct_ofList (es : Entries) : (ofList es).Distinct := by
  induction es using List.reverseRecOn with
  | nil => exact .nil
  | append_singleton es e ih =>
    rw [ofList_concat]
    exact ih.put _ _

/-- Keys and values of entries that were put one by one are keys and values of these. -/
theorem mem_ofList {es : Entries} {e : Value × Value} (he : e ∈ ofList es) :
    (∃ d ∈ es, e.1 = d.1) ∧ ∃ d ∈ es, e.2 = d.2 := by
  induction es using List.reverseRecOn generalizing e with
  | nil => cases he
  | append_singleton es d ih =>
    rw [ofList_concat] at he
    obtain ⟨hk, hv⟩ := mem_put he
    simp only [List.mem_append, List.mem_singleton]
    constructor
    · rcases hk with hk | ⟨x, hx, hk⟩
      · exact ⟨d, .inr rfl, hk⟩
      · obtain ⟨y, hy, hxy⟩ := (ih hx).1
        exact ⟨y, .inl hy, hk.trans hxy⟩
    · rcases hv with hv | ⟨x, hx, hv⟩
      · exact ⟨d, .inr rfl, hv⟩
      · obtain ⟨y, hy, hxy⟩ := (ih hx).2
        exact ⟨y, .inl hy, hv.trans hxy⟩

/-- Behind entries of other keys, an entry is found under its own. -/
theorem find?_of_distinct {xs ys : Entries} {key value : Value} (h : Distinct (xs ++ (key, value) :: ys)) :
    find? key xs = none ∧ find? key (xs ++ (key, value) :: ys) = some value := by
  have hnone : find? key xs = none :=
    find?_eq_none.2 fun e he => (List.pairwise_append.1 h).2.2 e he _ List.mem_cons_self
  rw [find?_append, hnone, Option.none_or, find?_cons_self]
  exact ⟨rfl, rfl⟩

theorem find?_of_mem {es : Entries} (h : es.Distinct) {key value : Value} (he : (key, value) ∈ es) :
    find? key es = some value := by
  obtain ⟨xs, ys, rfl⟩ := List.append_of_mem he
  exact (find?_of_distinct h).2

/-- An entry is told by its key. -/
theorem Distinct.eq_of_fst_eq {es : Entries} (h : es.Distinct) {d e : Value × Value} (hd : d ∈ es) (he : e ∈ es)
    (hk : d.1 = e.1) : d = e := by
  obtain ⟨k, v⟩ := d
  obtain ⟨l, w⟩ := e
  obtain rfl : k = l := hk
  rw [Option.some.inj ((find?_of_mem h hd).symm.trans (find?_of_mem h he))]

/-- What is there already may be put in again. -/
theorem put_of_mem {es : Entries} (h : es.Distinct) {key value : Value} (he : (key, value) ∈ es) :
    put key value es = es := by
  obtain ⟨xs, ys, rfl⟩ := List.append_of_mem he
  rw [put_append (find?_of_distinct h).1, put_cons_self]

/-- Strings that differ are keys that differ. -/
theorem distinct_of_nodup {es : Entries} {names : List String} (h : es.map Prod.fst = names.map .string)
    (hn : names.Nodup) : es.Distinct := by
  have hkeys : (es.map Prod.fst).Pairwise fun a b => a.same b = false := by
    rw [h, List.pairwise_map]
    refine hn.imp fun hne => ?_
    rw [← Bool.not_eq_true, Value.string_same, Value.string.injEq]
    exact hne.symm
  exact List.pairwise_map.1 hkeys

theorem mem_of_find?_string {es : Entries} {s : String} {value : Value} (h : find? (.string s) es = some value) :
    (.string s, value) ∈ es := by
  induction es with
  | nil => cases h
  | cons e es ih =>
    obtain ⟨k, v⟩ := e
    rw [find?] at h
    split at h
    · rename_i hk
      rw [Value.same_string.1 hk, Option.some.inj h]
      exact List.mem_cons_self
    · exact List.mem_cons_of_mem _ (ih h)

end Entries

end Upnp.Yaml
