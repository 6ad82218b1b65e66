import Upnp.Config.Tree
import Upnp.Proofs.Text.LowerCase
import Upnp.Proofs.Yaml.Value

/-
Trees of settings, laid one over the other. What the laying comes to is said here entry by entry: the
entries of the lower tree stay in their places, each with that of the upper tree laid over it if there is
one, and behind them come those entries of the upper tree that are new. Where keys are strings below and
differ from each other in both trees, this is what merging makes, and it settles what stands at any path.
-/

namespace Upnp.Config

open Upnp.Text Upnp.Yaml

/-! ## Lower case -/

mutual

/-- The tree with every key that is a string in lower case, of all mappings in it. -/
def lowered : Value → Value
  | .sequence items => .sequence (loweredItems items)
  | .mapping entries => .mapping (loweredEntries entries)
  | v => v

def loweredItems : List Value → List Value
  | [] => []
  | v :: vs => lowered v :: loweredItems vs

def loweredEntries : Entries → Entries
  | [] => []
  | e :: es => loweredEntry e :: loweredEntries es

def loweredEntry : Value × Value → Value × Value
  | (.string s, v) => (.string (toLower s), lowered v)
  | (k, v) => (k, lowered v)

end

/-- In all mappings of the tree the keys differ. -/
inductive Apart : Value → Prop
  | leaf {v : Value} (hs : ∀ items, v ≠ .sequence items) (hm : ∀ entries, v ≠ .mapping entries) : Apart v
  | sequence {items : List Value} (h : ∀ v ∈ items, Apart v) : Apart (.sequence items)
  | mapping {entries : Entries} (hd : entries.Distinct) (h : ∀ e ∈ entries, Apart e.2) : Apart (.mapping entries)

theorem apart_sequence_iff {items : List Value} : Apart (.sequence items) ↔ ∀ v ∈ items, Apart v := by
  refine ⟨?_, .sequence⟩
  rintro (⟨hs, -⟩ | h | _)
  · exact absurd rfl (hs items)
  · exact h

theorem apart_mapping_iff {entries : Entries} :
    Apart (.mapping entries) ↔ entries.Distinct ∧ ∀ e ∈ entries, Apart e.2 := by
  refine ⟨?_, fun h => .mapping h.1 h.2⟩
  rintro (⟨-, hm⟩ | _ | ⟨hd, h⟩)
  · exact absurd rfl (hm entries)
  · exact ⟨hd, h⟩

theorem apart_of_isScalar {v : Value} (h : v.IsScalar) : Apart v := by
  cases v with
  | sequence | mapping | tagged => exact h.elim
  | _ => exact .leaf (fun _ h => nomatch h) fun _ h => nomatch h

/-- What stands behind a tag does not count. -/
theorem apart_tagged (name : String) (v : Value) : Apart (.tagged name v) :=
  .leaf (fun _ h => nomatch h) fun _ h => nomatch h

theorem lowered_of_isScalar {v : Value} (h : v.IsScalar) : lowered v = v := by
  cases v with
  | sequence | mapping | tagged => exact h.elim
  | _ => rfl

theorem loweredItems_eq_map (items : List Value) : loweredItems items = items.map lowered := by
  induction items with
  | nil => rfl
  | cons v items ih => rw [loweredItems, ih, List.map_cons]

theorem loweredEntries_eq_map (es : Entries) : loweredEntries es = es.map loweredEntry := by
  induction es with
  | nil => rfl
  | cons e es ih => rw [loweredEntries, ih, List.map_cons]

theorem loweredEntry_eq (e : Value × Value) : loweredEntry e = (lowerKey e.1, lowered e.2) := by
  obtain ⟨k, v⟩ := e
  cases k <;> rfl

theorem lowerKey_lowerKey (k : Value) : lowerKey (lowerKey k) = lowerKey k := by
  cases k with
  | string s => exact congrArg Value.string (toLower_toLower s)
  | _ => rfl

theorem lowerItems_eq_map (items : List Value) : lowerItems items = items.map lowerKeys := by
  induction items with
  | nil => rfl
  | cons v items ih => rw [lowerItems, ih, List.map_cons]

theorem lowerEntries_eq_map (es : Entries) : lowerEntries es = es.map lowerEntry := by
  induction es with
  | nil => rfl
  | cons e es ih => rw [lowerEntries, ih, List.map_cons]

theorem lowerItems_eq {items : List Value} (h : ∀ v ∈ items, lowerKeys v = lowered v) :
    lowerItems items = loweredItems items := by
  rw [lowerItems_eq_map, loweredItems_eq_map]
  exact List.map_congr_left h

theorem lowerEntries_eq {es : Entries} (h : ∀ e ∈ es, lowerKeys e.2 = lowered e.2) :
    lowerEntries es = loweredEntries es := by
  rw [lowerEntries_eq_map, loweredEntries_eq_map]
  refine List.map_congr_left fun e he => ?_
  rw [loweredEntry_eq, ← h e he, lowerEntry]

/-- Where no keys become one, putting keys in lower case is all that happens. -/
theorem lowerKeys_eq_lowered {v : Value} (h : Apart (lowered v)) : lowerKeys v = lowered v := by
  induction v using Value.induction with
  | sequence items ih =>
    rw [lowered, loweredItems_eq_map, apart_sequence_iff, List.forall_mem_map] at h
    rw [lowerKeys, lowered, lowerItems_eq fun v hv => ih v hv (h v hv)]
  | mapping entries ih =>
    rw [lowered] at h
    obtain ⟨hd, h⟩ := apart_mapping_iff.1 h
    have hvalues : ∀ e ∈ entries, Apart (lowered e.2) := by
      rw [loweredEntries_eq_map, List.forall_mem_map] at h
      simpa only [loweredEntry_eq] using h
    rw [lowerKeys, lowered, lowerEntries_eq fun e he => (ih e he).2 (hvalues e he), Entries.ofList_of_distinct hd]
  | _ => rfl

theorem lowered_lowered (v : Value) : lowered (lowered v) = lowered v := by
  induction v using Value.induction with
  | sequence items ih =>
    rw [lowered, lowered, loweredItems_eq_map, loweredItems_eq_map, List.map_map]
    exact congrArg Value.sequence (List.map_congr_left ih)
  | mapping entries ih =>
    rw [lowered, lowered, loweredEntries_eq_map, loweredEntries_eq_map, List.map_map]
    refine congrArg Value.mapping (List.map_congr_left fun e he => ?_)
    rw [Function.comp_apply, loweredEntry_eq, loweredEntry_eq, lowerKey_lowerKey, (ih e he).2]
  | _ => rfl

theorem lowered_sequence_eq_self {items : List Value} : lowered (.sequence items) = .sequence items ↔
    ∀ v ∈ items, lowered v = v := by
  rw [lowered, Value.sequence.injEq]
  induction items with
  | nil => exact iff_of_true rfl fun v hv => absurd hv List.not_mem_nil
  | cons v items ih => rw [loweredItems, List.cons.injEq, ih, List.forall_mem_cons]

/-- A mapping is in lower case if its keys and values are. -/
theorem lowered_mapping_eq_self {entries : Entries} : lowered (.mapping entries) = .mapping entries ↔
    ∀ e ∈ entries, lowerKey e.1 = e.1 ∧ lowered e.2 = e.2 := by
  rw [lowered, Value.mapping.injEq]
  induction entries with
  | nil => exact iff_of_true rfl fun e he => absurd he List.not_mem_nil
  | cons e entries ih =>
    rw [loweredEntries, List.cons.injEq, ih, List.forall_mem_cons, loweredEntry_eq, Prod.ext_iff]

/-- An entry of a mapping with its keys in lower case has a key and a value of the mapping, in lower case. -/
theorem mem_lowerKeys {entries : Entries} {e : Value × Value} (he : e ∈ Entries.ofList (lowerEntries entries)) :
    (∃ d ∈ entries, e.1 = lowerKey d.1) ∧ ∃ d ∈ entries, e.2 = lowerKeys d.2 := by
  rw [lowerEntries_eq_map] at he
  obtain ⟨⟨x, hx, hk⟩, y, hy, hv⟩ := Entries.mem_ofList he
  obtain ⟨⟨k, w⟩, hc, rfl⟩ := List.mem_map.1 hx
  obtain ⟨⟨l, v⟩, hd, rfl⟩ := List.mem_map.1 hy
  rw [lowerEntry] at hk hv
  exact ⟨⟨_, hc, hk⟩, _, hd, hv⟩

/-- Putting keys in lower case leaves no two alike. -/
theorem apart_lowerKeys (v : Value) : Apart (lowerKeys v) := by
  induction v using Value.induction with
  | sequence items ih =>
    rw [lowerKeys, lowerItems_eq_map, apart_sequence_iff, List.forall_mem_map]
    exact ih
  | mapping entries ih =>
    rw [lowerKeys]
    refine .mapping (Entries.distinct_ofList _) fun e he => ?_
    obtain ⟨-, d, hd, hv⟩ := mem_lowerKeys he
    exact hv ▸ (ih d hd).2
  | _ => exact .leaf (fun _ h => nomatch h) fun _ h => nomatch h

theorem lowered_lowerKeys (v : Value) : lowered (lowerKeys v) = lowerKeys v := by
  induction v using Value.induction with
  | sequence items ih =>
    rw [lowerKeys, lowered, lowerItems_eq_map, loweredItems_eq_map, List.map_map]
    exact congrArg Value.sequence (List.map_congr_left ih)
  | mapping entries ih =>
    rw [lowerKeys, lowered_mapping_eq_self]
    intro e he
    obtain ⟨⟨c, hc, hk⟩, d, hd, hv⟩ := mem_lowerKeys he
    exact ⟨hk ▸ lowerKey_lowerKey c.1, hv ▸ (ih d hd).2⟩
  | _ => rfl

/-- A tree in lower case whose keys differ stays as it is. -/
theorem lowerKeys_eq_self {v : Value} (ha : Apart v) (hl : lowered v = v) : lowerKeys v = v :=
  (lowerKeys_eq_lowered (hl.symm ▸ ha)).trans hl

/-! ## Laying over -/

/-- The entries whose keys are not there yet. -/
def newEntries (own es : Entries) : Entries :=
  es.filter fun e => !own.any (·.1.same e.1)

mutual

/-- The value with another laid over it. -/
def overlaid : Value → Value → Value
  | .mapping own, .mapping es => .mapping (overlaidEntries own es ++ newEntries own es)
  | _, v => v

def overlaidEntries : Entries → Entries → Entries
  | [], _ => []
  | d :: ds, es => overlaidEntry d es :: overlaidEntries ds es

def overlaidEntry : Value × Value → Entries → Value × Value
  | (k, v), es =>
    match Entries.find? k es with
    | some w => (k, overlaid v w)
    | none => (k, v)

end

/-- The keys of the mapping, and those of mappings that are its values, are strings and differ. -/
inductive Plain : Value → Prop
  | leaf {v : Value} (h : ∀ entries, v ≠ .mapping entries) (ha : Apart v) : Plain v
  | mapping {entries : Entries} (hd : entries.Distinct) (hk : ∀ e ∈ entries, ∃ s, e.1 = .string s)
    (h : ∀ e ∈ entries, Plain e.2) : Plain (.mapping entries)

theorem Plain.apart {v : Value} (h : Plain v) : Apart v := by
  induction h with
  | leaf h ha => exact ha
  | mapping hd hk h ih => exact .mapping hd ih

theorem overlaidEntries_eq_map (own es : Entries) : overlaidEntries own es = own.map (overlaidEntry · es) := by
  induction own with
  | nil => rfl
  | cons d own ih => rw [overlaidEntries, ih, List.map_cons]

theorem overlaidEntries_nil (own : Entries) : overlaidEntries own [] = own := by
  induction own with
  | nil => rfl
  | cons d own ih => rw [overlaidEntries, ih, overlaidEntry, Entries.find?]

theorem overlaidEntry_fst (d : Value × Value) (es : Entries) : (overlaidEntry d es).1 = d.1 := by
  obtain ⟨k, v⟩ := d
  rw [overlaidEntry]
  split <;> rfl

theorem overlaid_of_not_mapping {base : Value} (h : ∀ entries, base ≠ .mapping entries) (v : Value) :
    overlaid base v = v := by
  cases base with
  | mapping entries => exact absurd rfl (h entries)
  | _ => rfl

theorem overlaid_not_mapping (base : Value) {v : Value} (h : ∀ entries, v ≠ .mapping entries) :
    overlaid base v = v := by
  cases v with
  | mapping entries => exact absurd rfl (h entries)
  | _ => cases base <;> rfl

/-! ## Merging -/

/-- The entry is under a key that is not there yet. -/
def IsNew (own : Entries) (e : Value × Value) : Prop :=
  ∀ d ∈ own, d.1.same e.1 = false

theorem find?_overlaidEntries (key : Value) (own es : Entries) : Entries.find? key (overlaidEntries own es) = none ↔
    Entries.find? key own = none := by
  rw [overlaidEntries_eq_map, Entries.find?_eq_none, Entries.find?_eq_none, List.forall_mem_map]
  simp only [overlaidEntry_fst]

theorem not_any_iff {own : Entries} {e : Value × Value} : (!own.any (·.1.same e.1)) = true ↔ IsNew own e := by
  rw [Bool.not_eq_true', List.any_eq_false]
  simp only [Bool.not_eq_true, IsNew]

theorem mem_newEntries {own es : Entries} {e : Value × Value} : e ∈ newEntries own es ↔ e ∈ es ∧ IsNew own e := by
  unfold newEntries
  rw [List.mem_filter, not_any_iff]

theorem newEntries_append (own es fs : Entries) :
    newEntries own (es ++ fs) = newEntries own es ++ newEntries own fs :=
  List.filter_append ..

/-- No entries are new whose keys are there already. -/
theorem newEntries_of_keys {own es : Entries} (hk : es.map Prod.fst = own.map Prod.fst) : newEntries own es = [] := by
  refine List.filter_eq_nil_iff.2 fun e he hnew => ?_
  obtain ⟨d, hd, hke⟩ := List.mem_map.1 (hk ▸ List.mem_map_of_mem he)
  have hne := not_any_iff.1 hnew d hd
  rw [hke, e.1.same_refl] at hne
  cases hne

theorem newEntries_eq_self {own es : Entries} (h : ∀ e ∈ es, IsNew own e) : newEntries own es = es :=
  List.filter_eq_self.2 fun e he => not_any_iff.2 (h e he)

theorem newEntries_concat_of_new {own : Entries} {e : Value × Value} (h : IsNew own e) (es : Entries) :
    newEntries own (es ++ [e]) = newEntries own es ++ [e] := by
  rw [newEntries_append, newEntries_eq_self (List.forall_mem_singleton.2 h)]

theorem newEntries_concat_of_not_new {own : Entries} {e : Value × Value} (h : ¬ IsNew own e) (es : Entries) :
    newEntries own (es ++ [e]) = newEntries own es := by
  rw [newEntries, List.filter_append, List.filter_cons, if_neg (mt not_any_iff.1 h), List.filter_nil, List.append_nil,
    ← newEntries]

/-- An entry of another key changes nothing in what is laid over an entry. -/
theorem overlaidEntry_concat_of_ne {d e : Value × Value} (h : e.1.same d.1 = false) (es : Entries) :
    overlaidEntry d (es ++ [e]) = overlaidEntry d es := by
  obtain ⟨k, v⟩ := d
  have hfind : Entries.find? k (es ++ [e]) = Entries.find? k es := by
    rw [Entries.find?_append, show Entries.find? k [e] = none from Entries.find?_eq_none.2 fun x hx => by
      rw [List.mem_singleton.1 hx]
      exact h, Option.or_none]
  rw [overlaidEntry, overlaidEntry, hfind]

theorem overlaidEntries_concat_of_ne {own : Entries} {e : Value × Value} (h : ∀ d ∈ own, e.1.same d.1 = false)
    (es : Entries) : overlaidEntries own (es ++ [e]) = overlaidEntries own es := by
  rw [overlaidEntries_eq_map, overlaidEntries_eq_map]
  exact List.map_congr_left fun d hd => overlaidEntry_concat_of_ne (h d hd) es

/-- Among keys that are strings it does not matter which of two is compared to the other. -/
theorem same_of_string {k key : Value} (hk : ∃ s, k = .string s) (h : k.same key = false) : key.same k = false := by
  obtain ⟨s, rfl⟩ := hk
  rw [← Bool.not_eq_true] at h ⊢
  exact fun hs => h (Value.same_string.1 hs ▸ Value.same_refl _)

/-- An entry that is not new is under the key of one that is there. -/
theorem exists_of_not_isNew {own : Entries} (hk : ∀ d ∈ own, ∃ s, d.1 = .string s) {e : Value × Value}
    (h : ¬ IsNew own e) : ∃ d, (e.1, d) ∈ own := by
  obtain ⟨⟨k, d⟩, hmem, hsame⟩ : ∃ d ∈ own, d.1.same e.1 = true := by
    simpa [IsNew] using h
  obtain ⟨s, rfl⟩ := hk _ hmem
  exact ⟨d, Value.string_same.1 hsame ▸ hmem⟩

theorem mergeEntries_concat (own es : Entries) (e : Value × Value) :
    mergeEntries own (es ++ [e]) = mergeEntry (mergeEntries own es) e := by
  induction es generalizing own with
  | nil => rfl
  | cons d es ih => exact ih _

section

variable {own es : Entries} {key v : Value}

/-- An entry that is new comes behind the others. -/
theorem mergeEntry_of_new (hk : ∀ d ∈ own, ∃ s, d.1 = .string s) (hes : Entries.find? key es = none)
    (hnew : IsNew own (key, v)) :
    mergeEntry (overlaidEntries own es ++ newEntries own es) (key, v) =
      overlaidEntries own (es ++ [(key, v)]) ++ newEntries own (es ++ [(key, v)]) := by
  have hfilter : Entries.find? key (newEntries own es) = none :=
    Entries.find?_eq_none.2 fun d hd => Entries.find?_eq_none.1 hes d (mem_newEntries.1 hd).1
  have hnone : Entries.find? key (overlaidEntries own es ++ newEntries own es) = none := by
    rw [Entries.find?_append, (find?_overlaidEntries key own es).2 (Entries.find?_eq_none.2 hnew), hfilter]
    rfl
  rw [mergeEntry, hnone, overlaidEntries_concat_of_ne fun d hd => same_of_string (hk d hd) (hnew d hd),
    newEntries_concat_of_new hnew, ← List.append_assoc]

/-- Any other is merged with the one that is there. -/
theorem mergeEntry_of_mem (hd : own.Distinct) (hk : ∀ d ∈ own, ∃ s, d.1 = .string s)
    (hes : Entries.find? key es = none) {d : Value} (hmem : (key, d) ∈ own) (hv : merge d v = overlaid d v) :
    mergeEntry (overlaidEntries own es ++ newEntries own es) (key, v) =
      overlaidEntries own (es ++ [(key, v)]) ++ newEntries own (es ++ [(key, v)]) := by
  have hold : ¬ IsNew own (key, v) := fun h => by
    have hne := h _ hmem
    rw [key.same_refl] at hne
    cases hne
  rw [newEntries_concat_of_not_new hold]
  generalize newEntries own es = new
  -- the entry stands between others, which are all under other keys
  obtain ⟨xs, ys, rfl⟩ := List.append_of_mem hmem
  obtain ⟨-, hys, hxs⟩ := List.pairwise_append.1 hd
  have hxs' : ∀ x ∈ xs, key.same x.1 = false := fun x hx =>
    same_of_string (hk x (List.mem_append_left _ hx)) (hxs x hx _ List.mem_cons_self)
  have hys' : ∀ y ∈ ys, key.same y.1 = false := fun y hy => (List.pairwise_cons.1 hys).1 y hy
  have hhere : overlaidEntry (key, d) es = (key, d) := by
    rw [overlaidEntry, hes]
  have hthere : overlaidEntry (key, d) (es ++ [(key, v)]) = (key, overlaid d v) := by
    rw [overlaidEntry, Entries.find?_append, hes, Option.none_or, Entries.find?_cons_self]
  have hnone : Entries.find? key (overlaidEntries xs es) = none :=
    (find?_overlaidEntries key xs es).2 (Entries.find?_eq_none.2 fun x hx => hxs x hx _ List.mem_cons_self)
  have hparts : ∀ all, overlaidEntries (xs ++ (key, d) :: ys) all ++ new =
      overlaidEntries xs all ++ (overlaidEntry (key, d) all :: (overlaidEntries ys all ++ new)) := fun all => by
    rw [overlaidEntries_eq_map, List.map_append, List.map_cons, List.append_assoc, List.cons_append,
      ← overlaidEntries_eq_map, ← overlaidEntries_eq_map]
  rw [hparts, hparts, hhere, hthere, overlaidEntries_concat_of_ne hxs', overlaidEntries_concat_of_ne hys', mergeEntry,
    Entries.find?_append, hnone, Option.none_or, Entries.find?_cons_self]
  simp only [Entries.put_append hnone, Entries.put_cons_self, hv]

theorem mergeEntries_eq_overlaid (hd : own.Distinct) (hk : ∀ d ∈ own, ∃ s, d.1 = .string s) (he : es.Distinct)
    (hv : ∀ e ∈ es, ∀ d ∈ own, merge d.2 e.2 = overlaid d.2 e.2) :
    mergeEntries own es = overlaidEntries own es ++ newEntries own es := by
  induction es using List.reverseRecOn with
  | nil =>
    rw [overlaidEntries_nil]
    exact (List.append_nil own).symm
  | append_singleton es e ih =>
    obtain ⟨hes, -, hlast⟩ := List.pairwise_append.1 he
    have hnone : Entries.find? e.1 es = none :=
      Entries.find?_eq_none.2 fun d hd => hlast d hd e (List.mem_singleton_self e)
    rw [mergeEntries_concat, ih hes fun d hd => hv d (List.mem_append_left _ hd)]
    by_cases hnew : IsNew own e
    · exact mergeEntry_of_new hk hnone hnew
    · obtain ⟨d, hmem⟩ := exists_of_not_isNew hk hnew
      exact mergeEntry_of_mem hd hk hnone hmem (hv e List.mem_concat_self _ hmem)

end

theorem merge_of_not_mapping (base : Value) {v : Value} (h : ∀ entries, v ≠ .mapping entries) : merge base v = v := by
  cases v with
  | mapping entries => exact absurd rfl (h entries)
  | _ => cases base <;> rfl

/-- Merging lays one tree over the other. -/
theorem merge_eq_overlaid {upper : Value} (ho : Apart upper) : ∀ {base : Value}, Plain base →
    merge base upper = overlaid base upper := by
  induction upper using Value.mapping_induction with
  | leaf v h =>
    intro base _
    rw [overlaid_not_mapping base h, merge_of_not_mapping base h]
  | mapping entries ih =>
    obtain ⟨he, hes⟩ := apart_mapping_iff.1 ho
    intro base hb
    cases hb with
    | leaf h ha =>
      rw [overlaid_of_not_mapping h]
      cases base with
      | mapping own => exact absurd rfl (h own)
      | _ => rfl
    | @mapping own hd hk h =>
      rw [merge, overlaid, mergeEntries_eq_overlaid hd hk he fun e hmem d hown =>
        ih e hmem (hes e hmem) (h d hown)]

/-! ## What is laid over stays in shape -/

theorem mem_overlaidEntries {own es : Entries} {e : Value × Value} (he : e ∈ overlaidEntries own es) :
    ∃ d ∈ own, e.1 = d.1 ∧ (e.2 = d.2 ∨ ∃ w ∈ es, e.2 = overlaid d.2 w.2) := by
  rw [overlaidEntries_eq_map] at he
  obtain ⟨⟨k, v⟩, hd, rfl⟩ := List.mem_map.1 he
  refine ⟨_, hd, overlaidEntry_fst _ _, ?_⟩
  rw [overlaidEntry]
  split
  · rename_i w hw
    obtain ⟨key, hmem⟩ := Entries.exists_mem_of_find? hw
    exact .inr ⟨_, hmem, rfl⟩
  · exact .inl rfl

theorem distinct_overlaid {own es : Entries} (hd : own.Distinct) (he : es.Distinct) :
    Entries.Distinct (overlaidEntries own es ++ newEntries own es) := by
  refine List.pairwise_append.2 ⟨?_, he.filter _, fun a ha b hb => ?_⟩
  · rw [overlaidEntries_eq_map, List.pairwise_map]
    simp only [overlaidEntry_fst]
    exact hd
  · obtain ⟨d, hown, hkey, -⟩ := mem_overlaidEntries ha
    rw [hkey]
    exact (mem_newEntries.1 hb).2 d hown

theorem apart_overlaid {upper : Value} (ho : Apart upper) : ∀ {base : Value}, Apart base →
    Apart (overlaid base upper) := by
  induction upper using Value.mapping_induction with
  | leaf v h =>
    intro base _
    rwa [overlaid_not_mapping base h]
  | mapping entries ih =>
    obtain ⟨he, hes⟩ := apart_mapping_iff.1 ho
    intro base hb
    cases hb with
    | leaf hs hm => exact (overlaid_of_not_mapping hm _).symm ▸ ho
    | sequence => exact ho
    | mapping hd h =>
      rw [overlaid]
      refine .mapping (distinct_overlaid hd he) fun e hmem => ?_
      rcases List.mem_append.1 hmem with hmem | hmem
      · obtain ⟨d, hown, -, hv | ⟨w, hw, hv⟩⟩ := mem_overlaidEntries hmem
        · exact hv ▸ h d hown
        · exact hv ▸ ih w hw (hes w hw) (h d hown)
      · exact hes e (mem_newEntries.1 hmem).1

theorem lowered_overlaid {upper : Value} (ho : lowered upper = upper) : ∀ {base : Value}, lowered base = base →
    lowered (overlaid base upper) = overlaid base upper := by
  induction upper using Value.mapping_induction with
  | leaf v h =>
    intro base _
    rwa [overlaid_not_mapping base h]
  | mapping entries ih =>
    have hes := lowered_mapping_eq_self.1 ho
    intro base hb
    cases base with
    | mapping own =>
      have hown := lowered_mapping_eq_self.1 hb
      rw [overlaid, lowered_mapping_eq_self]
      intro e hmem
      rcases List.mem_append.1 hmem with hmem | hmem
      · obtain ⟨d, hd, hk, hv⟩ := mem_overlaidEntries hmem
        refine ⟨hk ▸ (hown d hd).1, ?_⟩
        rcases hv with hv | ⟨w, hw, hv⟩
        · exact hv ▸ (hown d hd).2
        · exact hv ▸ ih w hw (hes w hw).2 (hown d hd).2
      · exact hes e (mem_newEntries.1 hmem).1
    | _ => exact ho

/-! ## Laying over again -/

/-- Entries that make no difference one by one make none together. -/
theorem mergeEntries_of_absorbed {all es : Entries} (hd : all.Distinct)
    (h : ∀ e ∈ es, ∃ x, (e.1, x) ∈ all ∧ merge x e.2 = x) : mergeEntries all es = all := by
  induction es with
  | nil => rfl
  | cons e es ih =>
    obtain ⟨key, v⟩ := e
    obtain ⟨x, hmem, hx⟩ := h _ List.mem_cons_self
    have hentry : mergeEntry all (key, v) = all := by
      rw [mergeEntry, Entries.find?_of_mem hd hmem]
      simp only [hx, Entries.put_of_mem hd hmem]
    rw [mergeEntries, hentry, ih fun d hd => h d (List.mem_cons_of_mem _ hd)]

theorem merge_self {v : Value} (h : Apart v) : merge v v = v := by
  induction v using Value.mapping_induction with
  | leaf v hv => exact merge_of_not_mapping v hv
  | mapping entries ih =>
    obtain ⟨hd, hes⟩ := apart_mapping_iff.1 h
    rw [merge, mergeEntries_of_absorbed hd fun e he => ⟨e.2, he, ih e he (hes e he)⟩]

/-- Laying the same tree over a second time changes nothing. -/
theorem merge_overlaid {upper : Value} (ho : Apart upper) : ∀ {base : Value}, Plain base →
    merge (overlaid base upper) upper = overlaid base upper := by
  induction upper using Value.mapping_induction with
  | leaf v h =>
    intro base _
    rw [overlaid_not_mapping base h, merge_of_not_mapping v h]
  | mapping entries ih =>
    obtain ⟨he, hes⟩ := apart_mapping_iff.1 ho
    intro base hb
    cases hb with
    | leaf h ha =>
      rw [overlaid_of_not_mapping h]
      exact merge_self ho
    | @mapping own hd hk h =>
      rw [overlaid, merge, mergeEntries_of_absorbed (distinct_overlaid hd he)]
      intro e hmem
      by_cases hnew : IsNew own e
      · exact ⟨e.2, List.mem_append_right _ (mem_newEntries.2 ⟨hmem, hnew⟩), merge_self (hes e hmem)⟩
      · -- the entry stands under its key already, laid over what was there
        obtain ⟨d, hown⟩ := exists_of_not_isNew hk hnew
        refine ⟨overlaid d e.2, List.mem_append_left _ ?_, ih e hmem (hes e hmem) (h _ hown)⟩
        have hentry : overlaidEntry (e.1, d) entries = (e.1, overlaid d e.2) := by
          rw [overlaidEntry, Entries.find?_of_mem he hmem]
        rw [overlaidEntries_eq_map, ← hentry]
        exact List.mem_map_of_mem hown

end Upnp.Config
