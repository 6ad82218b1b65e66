import Upnp.Proofs.Config.Changes

/-
Getting and setting along paths. A path is closed where something stands at a front part of it that is no
mapping, and only then does setting fail; where setting makes mappings, nothing below them is closed, so a
call that fails has made none, also when the tree is changed in place. Behind a call that succeeds, the value
stands at the path in every spelling, and paths that part from it lead where they led before.
-/

namespace Upnp.Config

open Upnp.Text Upnp.Yaml

/-! ## Paths that are asked for -/

/-- The paths have the same keys. -/
def SameKeys (p q : List String) : Prop :=
  p.map toLower = q.map toLower

/-- The first path is the front of the second, but for the letter case. -/
def IsFront (p q : List String) : Prop :=
  p.map toLower <+: q.map toLower

section Keys

variable {k l : String} {p q : List String}

theorem keyOf_eq_iff : keyOf k = keyOf l ↔ toLower k = toLower l := by
  simp [keyOf]

theorem sameKeys_cons_iff : SameKeys (k :: p) (l :: q) ↔ toLower k = toLower l ∧ SameKeys p q := by
  simp [SameKeys]

theorem isFront_cons_iff : IsFront (k :: p) (l :: q) ↔ toLower k = toLower l ∧ IsFront p q := by
  simp [IsFront, List.cons_prefix_cons]

theorem isFront_nil (q : List String) : IsFront [] q :=
  List.nil_prefix

end Keys

section

variable {k : String} {path : List String} {entries : Entries} {v w : Value}

theorem getFrom_of_find? (h : Entries.find? (keyOf k) entries = some v) (passed : List String) :
    getFrom passed (k :: path) (.mapping entries) = getFrom (passed ++ [k]) path v := by
  rw [getFrom, h]

theorem getFrom_of_find?_eq_none (h : Entries.find? (keyOf k) entries = none) (passed : List String) :
    getFrom passed (k :: path) (.mapping entries) = .error (.missing (passed ++ [k])) := by
  rw [getFrom, h]

/-- What stands at a path does not depend on the keys that led to the tree. -/
theorem getFrom_eq_ok_of (passed : List String) (h : getFrom passed path v = .ok w) (passed' : List String) :
    getFrom passed' path v = .ok w := by
  induction path generalizing v passed passed' with
  | nil => exact h
  | cons k path ih =>
    cases v with
    | mapping entries =>
      cases hf : Entries.find? (keyOf k) entries with
      | none =>
        rw [getFrom_of_find?_eq_none hf] at h
        cases h
      | some v =>
        rw [getFrom_of_find? hf] at h ⊢
        exact ih _ h _
    | _ => cases h

end

/-! ## Where a path is closed -/

section

variable {v t t' : Value} {path : List String}

/-- Nothing closes a path in an empty mapping. -/
theorem exists_set_empty (v : Value) (path : List String) : ∃ t', set v path (.mapping []) = .ok t' := by
  induction path with
  | nil => exact ⟨v, rfl⟩
  | cons k path ih =>
    obtain ⟨child, hchild⟩ := ih
    exact ⟨.mapping (Entries.put (keyOf k) child []), by rw [set, Entries.find?, Option.getD_none, hchild]; rfl⟩

theorem exists_set_cons_iff {k : String} {entries : Entries} :
    (∃ t', set v (k :: path) (.mapping entries) = .ok t') ↔
      ∀ child, Entries.find? (keyOf k) entries = some child → ∃ t', set v path child = .ok t' := by
  constructor
  · rintro ⟨t', h⟩ child hf
    obtain ⟨es, child', hes, hset, -⟩ := set_cons_eq_ok h
    cases hes
    rw [hf, Option.getD_some] at hset
    exact ⟨child', hset⟩
  · intro h
    have hopen : ∃ t', set v path ((Entries.find? (keyOf k) entries).getD (.mapping [])) = .ok t' := by
      cases hf : Entries.find? (keyOf k) entries with
      | none => exact exists_set_empty v path
      | some child => exact h child hf
    obtain ⟨child', hset⟩ := hopen
    exact ⟨.mapping (Entries.put (keyOf k) child' entries), by rw [set, hset]; rfl⟩

/-- Setting succeeds if all that stands on the way is a mapping. -/
theorem exists_set_iff : (∃ t', set v path t = .ok t') ↔
    ∀ q w, IsFront q path → q.length < path.length → get q t = .ok w → ∃ entries, w = .mapping entries := by
  induction path generalizing t with
  | nil => exact iff_of_true ⟨v, rfl⟩ fun q w _ hlen => absurd hlen (Nat.not_lt_zero _)
  | cons k path ih =>
    cases t with
    | mapping entries =>
      rw [exists_set_cons_iff]
      constructor
      · intro h q w hq hlen hget
        cases q with
        | nil => exact ⟨entries, (Except.ok.inj hget).symm⟩
        | cons l q =>
          obtain ⟨hkey, hq⟩ := isFront_cons_iff.1 hq
          cases hf : Entries.find? (keyOf l) entries with
          | none =>
            rw [get, getFrom_of_find?_eq_none hf] at hget
            cases hget
          | some child =>
            rw [get, getFrom_of_find? hf] at hget
            rw [keyOf_eq_iff.2 hkey] at hf
            exact ih.1 (h child hf) q w hq (Nat.lt_of_succ_lt_succ hlen) (getFrom_eq_ok_of _ hget [])
      · intro h child hf
        refine ih.2 fun q w hq hlen hget => ?_
        refine h (k :: q) w (isFront_cons_iff.2 ⟨rfl, hq⟩) (Nat.succ_lt_succ hlen) ?_
        rw [get, getFrom_of_find? hf]
        exact getFrom_eq_ok_of [] hget _
    | _ =>
      refine iff_of_false (fun ⟨t', h⟩ => nomatch h) fun h => ?_
      obtain ⟨entries, he⟩ := h [] _ (isFront_nil _) (Nat.succ_pos _) rfl
      cases he

/-! ## What is asked for afterwards -/

/-- The value is found at the path, in whatever letter case its keys are asked for. -/
theorem getFrom_set_self (h : set v path t = .ok t') (passed : List String) {q : List String} (hq : SameKeys q path) :
    getFrom passed q t' = .ok v := by
  induction path generalizing t t' passed q with
  | nil =>
    obtain rfl : q = [] := List.map_eq_nil_iff.1 hq
    cases h
    rfl
  | cons k path ih =>
    cases q with
    | nil => cases hq
    | cons l q =>
      obtain ⟨hkey, hq⟩ := sameKeys_cons_iff.1 hq
      obtain ⟨entries, child, rfl, hchild, rfl⟩ := set_cons_eq_ok h
      have hf : Entries.find? (keyOf l) (Entries.put (keyOf k) child entries) = some child := by
        rw [keyOf_eq_iff.2 hkey]
        exact Entries.find?_put_self _ _ _
      rw [getFrom_of_find? hf]
      exact ih hchild _ hq

/-- Asked before and after a change, a path leads to the same, or its end is missing: where mappings were made on
the way, it is a later key that is the first one missing. -/
inductive Kept (asked : List String) : Except TreeError Value → Except TreeError Value → Prop
  | same (r : Except TreeError Value) : Kept asked r r
  | missing {before after : List String} (hb : before <+: after) (ha : after <+: asked) :
    Kept asked (.error (.missing before)) (.error (.missing after))

/-- Paths that part from the one where a value was set are not changed by that. -/
theorem getFrom_set_other (h : set v path t = .ok t') (passed : List String) {q : List String}
    (hq : ¬ IsFront q path) (hp : ¬ IsFront path q) :
    Kept (passed ++ q) (getFrom passed q t) (getFrom passed q t') := by
  induction path generalizing t t' passed q with
  | nil => exact absurd (isFront_nil q) hp
  | cons k path ih =>
    cases q with
    | nil => exact absurd (isFront_nil _) hq
    | cons l q =>
      obtain ⟨entries, child, rfl, hchild, rfl⟩ := set_cons_eq_ok h
      by_cases hkey : toLower l = toLower k
      · have hfront : ¬ IsFront q path := fun hf => hq (isFront_cons_iff.2 ⟨hkey, hf⟩)
        have hback : ¬ IsFront path q := fun hf => hp (isFront_cons_iff.2 ⟨hkey.symm, hf⟩)
        have hput : Entries.find? (keyOf l) (Entries.put (keyOf k) child entries) = some child := by
          rw [keyOf_eq_iff.2 hkey]
          exact Entries.find?_put_self _ _ _
        have hkept := ih hchild (passed ++ [l]) hfront hback
        rw [getFrom_of_find? hput, List.append_cons]
        rw [← keyOf_eq_iff.2 hkey] at hkept
        cases hf : Entries.find? (keyOf l) entries with
        | some old =>
          rw [hf, Option.getD_some] at hkept
          rwa [getFrom_of_find? hf]
        | none =>
          -- a mapping was made here; nothing but the way to the value is in it
          rw [hf, Option.getD_none] at hkept
          rw [getFrom_of_find?_eq_none hf]
          cases q with
          | nil => exact absurd (isFront_nil path) hfront
          | cons m q =>
            rw [getFrom_of_find?_eq_none rfl] at hkept
            generalize getFrom (passed ++ [l]) (m :: q) child = after at hkept
            cases hkept with
            | same => exact .missing (List.prefix_append _ _) (by simp)
            | missing hb ha => exact .missing ((List.prefix_append _ _).trans hb) ha
      · have hf : Entries.find? (keyOf l) (Entries.put (keyOf k) child entries) = Entries.find? (keyOf l) entries :=
          Entries.find?_put_of_ne (fun he => hkey he.symm) _ _
        have hsame : getFrom passed (l :: q) (.mapping (Entries.put (keyOf k) child entries)) =
            getFrom passed (l :: q) (.mapping entries) := by
          rw [getFrom, getFrom, hf]
        rw [hsame]
        exact .same _

end

/-! ## Changing a tree in place -/

/-- The entries with an empty mapping under the key, if it is missing. -/
def opened (key : Value) (entries : Entries) : Entries :=
  if (Entries.find? key entries).isSome then entries else Entries.put key (.mapping []) entries

/-- Sets a value in a tree that is changed on the way down: what comes of it, and the tree that is left. What was
made before an error stays made. -/
def assign (v : Value) : List String → Value → Except TreeError Unit × Value
  | [], _ => (.ok (), v)
  | [k], .mapping entries => (.ok (), .mapping (Entries.put (keyOf k) v entries))
  | k :: path, .mapping entries =>
    let made := opened (keyOf k) entries
    let (result, child) := assign v path ((Entries.find? (keyOf k) made).getD .null)
    (result, .mapping (Entries.put (keyOf k) child made))
  | _ :: _, t => (.error .closed, t)

section

variable {k : String} {entries : Entries}

theorem put_put (s : String) (v w : Value) (es : Entries) :
    Entries.put (.string s) w (Entries.put (.string s) v es) = Entries.put (.string s) w es := by
  induction es with
  | nil => exact Entries.put_cons_self _ _ _ _
  | cons e es ih =>
    obtain ⟨key, old⟩ := e
    by_cases h : key.same (.string s)
    · simp [Entries.put, h]
    · simp [Entries.put, h, ih]

/-- What stands first under a key may be put there again. -/
theorem put_of_find? {key v : Value} {es : Entries} (h : Entries.find? key es = some v) : Entries.put key v es = es := by
  induction es with
  | nil => cases h
  | cons e es ih =>
    obtain ⟨k, old⟩ := e
    rw [Entries.find?] at h
    rw [Entries.put]
    split at h
    · rename_i hk
      rw [if_pos hk, Option.some.inj h]
    · rename_i hk
      rw [if_neg hk, ih h]

theorem find?_opened : Entries.find? (keyOf k) (opened (keyOf k) entries) =
    some ((Entries.find? (keyOf k) entries).getD (.mapping [])) := by
  unfold opened
  cases hf : Entries.find? (keyOf k) entries with
  | none => exact Entries.find?_put_self _ _ _
  | some v => exact hf

theorem put_opened (v : Value) : Entries.put (keyOf k) v (opened (keyOf k) entries) = Entries.put (keyOf k) v entries := by
  unfold opened
  split
  · rfl
  · exact put_put _ _ _ _

/-- Below the key a change goes on in what stands there, or in the mapping that was made. -/
theorem assign_cons (v : Value) (path : List String) : assign v (k :: path) (.mapping entries) =
    ((assign v path ((Entries.find? (keyOf k) entries).getD (.mapping []))).1, .mapping (Entries.put (keyOf k)
      (assign v path ((Entries.find? (keyOf k) entries).getD (.mapping []))).2 entries)) := by
  cases path with
  | nil => rfl
  | cons l path =>
    rw [assign]
    · simp only [find?_opened, Option.getD_some, put_opened]
    · exact fun h => nomatch h

end

/-- Changed in place, a tree is what setting makes of it; if that fails, it is what it was. -/
theorem assign_eq (v : Value) (path : List String) (t : Value) : assign v path t =
    match set v path t with
    | .ok t' => (.ok (), t')
    | .error e => (.error e, t) := by
  induction path generalizing t with
  | nil => rfl
  | cons k path ih =>
    cases t with
    | mapping entries =>
      rw [assign_cons, ih, set]
      cases hset : set v path ((Entries.find? (keyOf k) entries).getD (.mapping [])) with
      | ok child => rfl
      | error e =>
        cases hf : Entries.find? (keyOf k) entries with
        | none =>
          -- no error comes from below a mapping that was made
          obtain ⟨t', ht'⟩ := exists_set_empty v path
          rw [hf, Option.getD_none, ht'] at hset
          cases hset
        | some child =>
          simp only [Option.getD_some, put_of_find? hf]
          rfl
    | _ => cases path <;> rfl

/-! ## Configurations -/

/-- Sets a value in a configuration in place. -/
def setInPlace (path : List String) (v : Value) (c : Config) : Except ConfigError Unit × Config :=
  let (result, tree) := assign v path c.tree
  (result.mapError .tree, { c with tree })

theorem setInPlace_eq (path : List String) (v : Value) (c : Config) : c.setInPlace path v =
    match c.setValue path v with
    | .ok c' => (.ok (), c')
    | .error e => (.error e, c) := by
  unfold setInPlace setValue
  rw [assign_eq]
  cases set v path c.tree <;> rfl

theorem exists_setValue_iff {path : List String} {v : Value} {c : Config} :
    (∃ c', c.setValue path v = .ok c') ↔ ∃ t', set v path c.tree = .ok t' := by
  unfold setValue
  cases set v path c.tree with
  | ok t' => exact iff_of_true ⟨_, rfl⟩ ⟨_, rfl⟩
  | error e => exact iff_of_false (fun ⟨_, h⟩ => nomatch h) fun ⟨_, h⟩ => nomatch h

theorem getValue_eq_ok {path : List String} {c : Config} {w : Value} :
    c.getValue path = .ok w ↔ get path c.tree = .ok w := by
  unfold getValue
  cases get path c.tree <;> simp [Except.mapError]

/-- Setting succeeds exactly if nothing on the way to the end of the path is other than a mapping, and a call that
fails leaves the configuration as it was. After one that succeeds, the value is found at the path in every letter
case, and a path that is neither the front of that one nor goes on behind it has the value that it had, or fails as
before. Where it was missing, the missing front of it that the error names may change: if setting made mappings on
the way, it is a longer one. -/
theorem setValue_getValue (c : Config) (path : List String) (v : Value) :
    ((∃ c', c.setValue path v = .ok c') ↔
      ∀ q w, IsFront q path → q.length < path.length → c.getValue q = .ok w → ∃ entries, w = .mapping entries) ∧
    (c.setInPlace path v =
      match c.setValue path v with
      | .ok c' => (.ok (), c')
      | .error e => (.error e, c)) ∧
    ∀ c', c.setValue path v = .ok c' →
      (∀ q, SameKeys q path → c'.getValue q = .ok v) ∧
      ∀ q, ¬ IsFront q path → ¬ IsFront path q → c'.getValue q = c.getValue q ∨
        ∃ before after, before <+: after ∧ after <+: q ∧ c.getValue q = .error (.tree (.missing before)) ∧
          c'.getValue q = .error (.tree (.missing after)) := by
  refine ⟨?_, setInPlace_eq path v c, fun c' h => ?_⟩
  · rw [exists_setValue_iff, exists_set_iff]
    simp only [getValue_eq_ok]
  · obtain ⟨hset, -⟩ := setValue_eq_ok h
    refine ⟨fun q hq => getValue_eq_ok.2 (getFrom_set_self hset [] hq), fun q hq hp => ?_⟩
    have hkept := getFrom_set_other hset [] hq hp
    unfold getValue get
    generalize getFrom [] q c.tree = old at hkept
    generalize getFrom [] q c'.tree = new at hkept
    cases hkept with
    | same => exact .inl rfl
    | missing hb ha => exact .inr ⟨_, _, hb, ha, rfl, rfl⟩

/-- A lamp with a level, and what a change puts beside it. -/
def lampTree (ramp : Entries) : Value :=
  .mapping [(.string "lamp", .mapping ((.string "level", .number (.int 1)) :: ramp)), (.string "name", .string "Hall")]

def rampedTree : Value :=
  lampTree [(.string "ramp", .mapping [(.string "up", .number (.int 2))])]

/-- A ramp of the lamp is set, which makes a mapping; below the name, which is a text, nothing can be set. -/
theorem setValue_getValue_lamp :
    setValue ["Lamp", "Ramp", "Up"] (.number (.int 2)) { tree := lampTree [] } = .ok { tree := rampedTree } ∧
    getValue ["LAMP", "ramp", "UP"] { tree := rampedTree } = .ok (.number (.int 2)) ∧
    getValue ["lamp", "ramp", "down"] { tree := lampTree [] } = .error (.tree (.missing ["lamp", "ramp"])) ∧
    getValue ["lamp", "ramp", "down"] { tree := rampedTree } = .error (.tree (.missing ["lamp", "ramp", "down"])) ∧
    (¬ ∃ c', setValue ["Name", "First"] .null { tree := lampTree [] } = .ok c') ∧
    setInPlace ["Name", "First"] .null { tree := lampTree [] } = (.error (.tree .closed), { tree := lampTree [] }) := by
  have hset : setValue ["Lamp", "Ramp", "Up"] (.number (.int 2)) { tree := lampTree [] } =
      .ok { tree := rampedTree } := by with_unfolding_all rfl
  have hclosed : setValue ["Name", "First"] .null { tree := lampTree [] } = .error (.tree .closed) := by
    with_unfolding_all rfl
  obtain ⟨-, -, hafter⟩ := setValue_getValue { tree := lampTree [] } ["Lamp", "Ramp", "Up"] (.number (.int 2))
  obtain ⟨hiff, hplace, -⟩ := setValue_getValue { tree := lampTree [] } ["Name", "First"] .null
  have hname : getValue ["name"] { tree := lampTree [] } = .ok (.string "Hall") := by with_unfolding_all rfl
  refine ⟨hset, (hafter _ hset).1 _ (by unfold SameKeys; decide), ?_, ?_, ?_, ?_⟩
  · with_unfolding_all rfl
  · with_unfolding_all rfl
  · rw [hiff]
    intro h
    obtain ⟨entries, he⟩ := h ["name"] (.string "Hall") (by unfold IsFront; decide) (by decide) hname
    cases he
  · rw [hplace, hclosed]

end Upnp.Config
