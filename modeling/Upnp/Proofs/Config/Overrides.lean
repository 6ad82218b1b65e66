import Upnp.Proofs.Config.Paths

/-
Overriding variables in any order. A variable whose path is closed changes nothing, and then the value that stands
below each key is put there again; so what a variable makes of a tree is told key by key, whether it is taken or
not. Two variables whose paths part below some key change different entries there, and those that they make come
in the order of the variables. Nothing else of the order of variables is left in the tree.
-/

namespace Upnp.Config

open Upnp.Text Upnp.Yaml

/-! ## Trees but for the order of keys -/

/-- The trees differ at most in the order of the keys of mappings: entries of different keys have changed places. -/
inductive Reordered : Value → Value → Prop
  | refl (v : Value) : Reordered v v
  | entry (k : Value) {v w : Value} {es fs : Entries} (h : Reordered v w)
    (hs : Reordered (.mapping es) (.mapping fs)) : Reordered (.mapping ((k, v) :: es)) (.mapping ((k, w) :: fs))
  | swap {k l : Value} (h : k ≠ l) (v w : Value) (es : Entries) :
    Reordered (.mapping ((k, v) :: (l, w) :: es)) (.mapping ((l, w) :: (k, v) :: es))
  | trans {u v w : Value} (h : Reordered u v) (h' : Reordered v w) : Reordered u w

/-- At most one of two different keys is the one that is asked for. -/
theorem not_same_of_same {k l : Value} {s : String} (h : k ≠ l) (hk : k.same (keyOf s) = true) :
    l.same (keyOf s) = false :=
  Bool.eq_false_iff.2 fun hl => h ((Value.same_string.1 hk).trans (Value.same_string.1 hl).symm)

theorem Reordered.put {v w : Value} (h : Reordered v w) (key : Value) (es : Entries) :
    Reordered (.mapping (Entries.put key v es)) (.mapping (Entries.put key w es)) := by
  induction es with
  | nil => exact .entry _ h (.refl _)
  | cons e es ih =>
    rw [Entries.put, Entries.put]
    split
    · exact .entry _ h (.refl _)
    · exact .entry _ (.refl _) ih

/-- Under different keys values may be put in either order. -/
theorem reordered_put_put {k l : String} (h : keyOf k ≠ keyOf l) (v w : Value) (es : Entries) :
    Reordered (.mapping (Entries.put (keyOf l) w (Entries.put (keyOf k) v es)))
      (.mapping (Entries.put (keyOf k) v (Entries.put (keyOf l) w es))) := by
  have hkl : (keyOf k).same (keyOf l) = false := not_same_of_same (Ne.symm h) (Value.same_refl _)
  have hlk : (keyOf l).same (keyOf k) = false := not_same_of_same h (Value.same_refl _)
  induction es with
  | nil =>
    simp only [Entries.put, hkl, hlk, Bool.false_eq_true, if_false]
    exact .swap h v w []
  | cons e es ih =>
    obtain ⟨key, x⟩ := e
    by_cases hk : key.same (keyOf k) = true
    · have hl : key.same (keyOf l) = false := Value.same_string.1 hk ▸ hkl
      simp only [Entries.put, hk, hl, Bool.false_eq_true, if_false, if_true]
      exact .refl _
    · by_cases hl : key.same (keyOf l) = true
      · simp only [Entries.put, hk, hl, Bool.false_eq_true, if_false, if_true]
        exact .refl _
      · simp only [Entries.put, hk, hl, Bool.false_eq_true, if_false]
        exact .entry _ (.refl _) ih

/-! ## What is left of a tree -/

/-- The tree that is left when a value is set in place. -/
def assigned (v : Value) (path : List String) (t : Value) : Value :=
  (assign v path t).2

section

variable {k : String} {path : List String} {v w t t' : Value}

theorem assigned_cons (v : Value) (k : String) (path : List String) (es : Entries) :
    assigned v (k :: path) (.mapping es) = .mapping (Entries.put (keyOf k)
      (assigned v path ((Entries.find? (keyOf k) es).getD (.mapping []))) es) := by
  rw [assigned, assign_cons]
  rfl

theorem assigned_of_not_mapping (h : ∀ es, t ≠ .mapping es) (v : Value) (k : String) (path : List String) :
    assigned v (k :: path) t = t := by
  cases t with
  | mapping es => exact absurd rfl (h es)
  | _ => cases path <;> rfl

/-- A variable sets its value where it can, and leaves the tree as it was where it cannot. -/
theorem applyOverride_eq (tree : Value) (x : String × String) : applyOverride tree x =
    match overridePath? x.1 with
    | some path => assigned (overrideValue x.2) path tree
    | none => tree := by
  obtain ⟨name, text⟩ := x
  rw [applyOverride]
  cases overridePath? name with
  | none => rfl
  | some path =>
    simp only [assigned, assign_eq]
    cases set (overrideValue text) path tree <;> rfl

/-- A change of a tree goes the same way whatever the order of keys. -/
theorem Reordered.assigned (h : Reordered t t') (v : Value) (path : List String) :
    Reordered (assigned v path t) (assigned v path t') := by
  induction h generalizing path with
  | refl t => exact .refl _
  | trans _ _ ih ih' => exact (ih path).trans (ih' path)
  | @entry key x y es fs h hs ih ihs =>
    cases path with
    | nil => exact .refl _
    | cons k path =>
      have hrest := ihs (k :: path)
      rw [assigned_cons, assigned_cons] at hrest ⊢
      simp only [Entries.put, Entries.find?]
      by_cases hk : key.same (keyOf k) = true
      · simp only [hk, if_true, Option.getD_some]
        exact .entry _ (ih path) hs
      · simp only [hk, Bool.false_eq_true, if_false]
        exact .entry _ h hrest
  | @swap key other hne x y es =>
    cases path with
    | nil => exact .refl _
    | cons k path =>
      rw [assigned_cons, assigned_cons]
      simp only [Entries.put, Entries.find?]
      by_cases hk : key.same (keyOf k) = true
      · simp only [hk, not_same_of_same hne hk, Bool.false_eq_true, if_true, if_false]
        exact .swap hne _ _ _
      · by_cases ho : other.same (keyOf k) = true
        · simp only [hk, ho, Bool.false_eq_true, if_true, if_false]
          exact .swap hne _ _ _
        · simp only [hk, ho, Bool.false_eq_true, if_false]
          exact .swap hne _ _ _

/-- Changes at paths of which neither is the front of the other may be made in either order. -/
theorem reordered_assigned_assigned {p q : List String} (hp : ¬ IsFront p q) (hq : ¬ IsFront q p) (v w t : Value) :
    Reordered (assigned w q (assigned v p t)) (assigned v p (assigned w q t)) := by
  induction p generalizing q t with
  | nil => exact absurd (isFront_nil q) hp
  | cons k p ih =>
    cases q with
    | nil => exact absurd (isFront_nil (k :: p)) hq
    | cons l q =>
      rw [isFront_cons_iff, ← keyOf_eq_iff, not_and] at hp hq
      by_cases ht : ∃ es, t = .mapping es
      · obtain ⟨es, rfl⟩ := ht
        simp only [assigned_cons]
        by_cases hkey : keyOf k = keyOf l
        · -- both go below one key, where the paths part further on
          rw [← hkey]
          simp only [keyOf, Entries.find?_put_self, Option.getD_some, put_put]
          exact (ih (hp hkey) (hq hkey.symm) _).put (keyOf k) es
        · have hne : toLower k ≠ toLower l := fun he => hkey (keyOf_eq_iff.2 he)
          simp only [keyOf, Entries.find?_put_of_ne hne, Entries.find?_put_of_ne hne.symm]
          exact reordered_put_put hkey _ _ es
      · have hclosed : ∀ es, t ≠ .mapping es := fun es he => ht ⟨es, he⟩
        simp only [assigned_of_not_mapping hclosed]
        exact .refl _

end

/-! ## Variables -/

/-- The variables do not override at the same path, nor one below the other. -/
def Unrelated (x y : String × String) : Prop :=
  ∀ p q, overridePath? x.1 = some p → overridePath? y.1 = some q → ¬ IsFront p q ∧ ¬ IsFront q p

theorem Unrelated.symm {x y : String × String} (h : Unrelated x y) : Unrelated y x :=
  fun p q hp hq => (h q p hq hp).symm

theorem Reordered.applyOverride {t t' : Value} (h : Reordered t t') (x : String × String) :
    Reordered (applyOverride t x) (applyOverride t' x) := by
  rw [applyOverride_eq, applyOverride_eq]
  cases overridePath? x.1 with
  | none => exact h
  | some path => exact h.assigned _ path

theorem Reordered.applyOverrides {t t' : Value} (h : Reordered t t') (environment : List (String × String)) :
    Reordered (applyOverrides environment t) (applyOverrides environment t') := by
  induction environment generalizing t t' with
  | nil => exact h
  | cons x environment ih => exact ih (h.applyOverride x)

theorem reordered_applyOverride_applyOverride {x y : String × String} (h : Unrelated x y) (t : Value) :
    Reordered (applyOverride (applyOverride t x) y) (applyOverride (applyOverride t y) x) := by
  simp only [applyOverride_eq]
  cases hx : overridePath? x.1 with
  | none => exact .refl _
  | some p =>
    cases hy : overridePath? y.1 with
    | none => exact .refl _
    | some q => exact reordered_assigned_assigned (h p q hx hy).1 (h p q hx hy).2 _ _ t

/-- Variables whose paths are neither the same nor one the front of another leave the same tree in every order, but
for the order of the keys that they make, whether they are all taken or some are not. -/
theorem applyOverrides_perm {environment other : List (String × String)} (h : environment.Perm other)
    (hu : environment.Pairwise Unrelated) (tree : Value) :
    Reordered (applyOverrides environment tree) (applyOverrides other tree) := by
  induction h generalizing tree with
  | nil => exact .refl _
  | cons x h ih => exact ih hu.of_cons (applyOverride tree x)
  | swap x y rest =>
    have hxy : Unrelated y x := (List.pairwise_cons.1 hu).1 x List.mem_cons_self
    exact (reordered_applyOverride_applyOverride hxy tree).applyOverrides rest
  | trans h _ ih ih' => exact (ih hu tree).trans (ih' (h.pairwise hu fun h => h.symm) tree)

/-- Two numbers of a ramp that is missing, a name below a text, and a variable of something else. -/
def rampVariables : List (String × String) :=
  [("PMONETUPNP_CONFIG__LAMP__RAMP__UP", "2"), ("PMONETUPNP_CONFIG__Name__First", "Ada"), ("PATH", "/bin"),
    ("PMONETUPNP_CONFIG__lamp__ramp__down", "3")]

theorem overridePath?_rampVariables : rampVariables.map (overridePath? ·.1) =
    [some ["LAMP", "RAMP", "UP"], some ["Name", "First"], none, some ["lamp", "ramp", "down"]] := by
  decide

/-- A text that is one plain scalar sets the value of that. -/
theorem overrideValue_of_scalar {text : String} {v : Value}
    (ht : (places? text.toList).bind tokens? = some [.scalar true text.toList]) (hv : plainValue? text = some v) :
    overrideValue text = v := by
  have hnode : Node.ofTokens? [.scalar true text.toList] = some (.scalar {} true text) := by
    have hof : Node.ofTokens? [.scalar true text.toList] = some (.scalar {} true (String.ofList text.toList)) := rfl
    rw [hof, String.ofList_toList]
  have hread : Yaml.read? text = some v := by
    rw [read?_of_tokens ht hnode]
    simp [Node.value?, Node.expand?, scalarValue?, hv, Anchors.enter, Anchors.complete]
  rw [overrideValue, hread, Option.getD_some]

/-- The numbers of the ramp, in the order in which the variables make them. -/
def rampNumbers : Entries :=
  [(.string "up", .number (.int 2)), (.string "down", .number (.int 3))]

/-- Applied from the end, the variables make the ramp of the lamp with its keys in the other order; the name is
refused either way. -/
theorem applyOverrides_perm_ramp :
    rampVariables.Perm rampVariables.reverse ∧ rampVariables.Pairwise Unrelated ∧
    (∀ v, set v ["Name", "First"] (lampTree []) = .error .closed) ∧
    applyOverrides rampVariables (lampTree []) = lampTree [(.string "ramp", .mapping rampNumbers)] ∧
    applyOverrides rampVariables.reverse (lampTree []) =
      lampTree [(.string "ramp", .mapping rampNumbers.reverse)] ∧
    Reordered (applyOverrides rampVariables (lampTree [])) (applyOverrides rampVariables.reverse (lampTree [])) := by
  have hperm : rampVariables.Perm rampVariables.reverse := (List.reverse_perm _).symm
  have hpaths : (rampVariables.map (overridePath? ·.1)).Pairwise fun a b =>
      ∀ p ∈ a, ∀ q ∈ b, ¬ IsFront p q ∧ ¬ IsFront q p := by
    rw [overridePath?_rampVariables]
    unfold IsFront
    decide
  have hunrelated : rampVariables.Pairwise Unrelated :=
    (List.pairwise_map.1 hpaths).imp fun h p q hp hq => h p hp q hq
  have htwo : overrideValue "2" = .number (.int 2) := overrideValue_of_scalar (by decide +kernel) rfl
  have hthree : overrideValue "3" = .number (.int 3) := overrideValue_of_scalar (by decide +kernel) rfl
  -- the variables one by one, with their paths
  have hrun : ∀ t, applyOverrides rampVariables t = assigned (.number (.int 3)) ["lamp", "ramp", "down"]
      (assigned (overrideValue "Ada") ["Name", "First"] (assigned (.number (.int 2)) ["LAMP", "RAMP", "UP"] t)) := by
    intro t
    rw [← htwo, ← hthree]
    simp only [applyOverrides, rampVariables, List.foldl_cons, List.foldl_nil, applyOverride_eq]
    rfl
  have hback : ∀ t, applyOverrides rampVariables.reverse t = assigned (.number (.int 2)) ["LAMP", "RAMP", "UP"]
      (assigned (overrideValue "Ada") ["Name", "First"] (assigned (.number (.int 3)) ["lamp", "ramp", "down"] t)) := by
    intro t
    have hreverse : rampVariables.reverse = [("PMONETUPNP_CONFIG__lamp__ramp__down", "3"), ("PATH", "/bin"),
      ("PMONETUPNP_CONFIG__Name__First", "Ada"), ("PMONETUPNP_CONFIG__LAMP__RAMP__UP", "2")] := rfl
    rw [← htwo, ← hthree, hreverse]
    simp only [applyOverrides, List.foldl_cons, List.foldl_nil, applyOverride_eq]
    rfl
  generalize overrideValue "Ada" = name at hrun hback
  refine ⟨hperm, hunrelated, fun v => ?_, (hrun _).trans ?_, (hback _).trans ?_, applyOverrides_perm hperm hunrelated _⟩
  · with_unfolding_all rfl
  · with_unfolding_all rfl
  · with_unfolding_all rfl

end Upnp.Config
