import Upnp.Proofs.Action.Values

/-
Values that a message lists by name. They may come in any order, repeated and under names that no
argument has, and arguments may share a name: the first argument of a name takes the last value that is
listed for it, and nothing else changes. A message about another action changes nothing at all, also
when the action is changed in place.
-/

namespace Upnp.Action

/-! ## The last value of a name -/

/-- Of the values that are listed for a name, this is the last one. -/
def LastListed (values : List (String × String)) (name v : String) : Prop :=
  ∃ before after, values = before ++ (name, v) :: after ∧ name ∉ after.map Prod.fst

/-- The last value that is listed for a name. -/
def lastListed? : List (String × String) → String → Option String
  | [], _ => none
  | p :: values, name => (lastListed? values name).or (if p.1 = name then some p.2 else none)

variable {values : List (String × String)} {name v : String}

theorem lastListed?_eq_none : lastListed? values name = none ↔ name ∉ values.map Prod.fst := by
  induction values with
  | nil => exact ⟨fun _ => List.not_mem_nil, fun _ => rfl⟩
  | cons p values ih =>
    rw [lastListed?, Option.or_eq_none_iff, ih, List.map_cons, List.mem_cons, not_or, and_comm]
    refine and_congr_left fun _ => ?_
    rw [eq_comm (a := name)]
    split <;> simp [*]

theorem lastListed?_append_cons (before after : List (String × String)) (h : name ∉ after.map Prod.fst) :
    lastListed? (before ++ (name, v) :: after) name = some v := by
  induction before with
  | nil => rw [List.nil_append, lastListed?, lastListed?_eq_none.2 h, Option.none_or, if_pos rfl]
  | cons p before ih => rw [List.cons_append, lastListed?, ih, Option.some_or]

theorem lastListed?_eq_some : lastListed? values name = some v ↔ LastListed values name v := by
  constructor
  · intro h
    induction values with
    | nil => cases h
    | cons p values ih =>
      rw [lastListed?] at h
      cases hl : lastListed? values name with
      | some u =>
        rw [hl, Option.some_or] at h
        obtain ⟨before, after, rfl, hafter⟩ := ih (hl.trans h)
        exact ⟨p :: before, after, rfl, hafter⟩
      | none =>
        rw [hl, Option.none_or] at h
        split at h
        · rename_i hp
          cases h
          exact ⟨[], values, by rw [← hp, List.nil_append], lastListed?_eq_none.1 hl⟩
        · cases h
  · rintro ⟨before, after, rfl, h⟩
    exact lastListed?_append_cons before after h

theorem lastListed?_filter_of_ne {other : String} (h : name ≠ other) :
    lastListed? (values.filter (·.1 ≠ other)) name = lastListed? values name := by
  induction values with
  | nil => rfl
  | cons p values ih =>
    by_cases hp : p.1 = other
    · rw [List.filter_cons_of_neg (by simpa using hp), ih, lastListed?, if_neg (fun he => h (he.symm.trans hp)),
        Option.or_none]
    · rw [List.filter_cons_of_pos (by simpa using hp), lastListed?, ih, lastListed?]

/-! ## What is copied -/

/-- The argument with the last value that is listed for its name. -/
def given (values : List (String × String)) (x : Argument) : Argument :=
  x.setValue ((lastListed? values x.name).getD x.value)

theorem given_of_not_mem {x : Argument} (h : x.name ∉ values.map Prod.fst) : given values x = x := by
  rw [given, lastListed?_eq_none.2 h]
  rfl

theorem given_of_lastListed {x : Argument} (h : LastListed values x.name v) : given values x = x.setValue v := by
  rw [given, lastListed?_eq_some.2 h]
  rfl

theorem given_cons_self (v : String) (x : Argument) :
    given ((x.name, v) :: values) x = given values (x.setValue v) := by
  rw [given, lastListed?, if_pos rfl, given]
  show x.setValue _ = x.setValue ((lastListed? values x.name).getD v)
  cases lastListed? values x.name <;> rfl

theorem given_cons_of_ne {p : String × String} {x : Argument} (h : p.1 ≠ x.name) :
    given (p :: values) x = given values x := by
  rw [given, lastListed?, if_neg h, Option.or_none, given]

theorem assign_nil (values : List (String × String)) : assign [] values = [] := by
  induction values with
  | nil => rfl
  | cons p values ih => exact ih

/-- The first argument takes all values of its name. -/
theorem assign_cons (x : Argument) (xs : List Argument) (values : List (String × String)) :
    assign (x :: xs) values = given values x :: assign xs (values.filter (·.1 ≠ x.name)) := by
  induction values generalizing x xs with
  | nil => rfl
  | cons p values ih =>
    show assign (modifyFirst p.1 (·.setValue p.2) (x :: xs)) values = _
    rw [modifyFirst]
    by_cases h : x.name = p.1
    · obtain ⟨n, v⟩ := p
      obtain rfl : x.name = n := h
      rw [if_pos rfl, ih, ← given_cons_self, List.filter_cons_of_neg (by simp)]
      rfl
    · rw [if_neg h, ih, given_cons_of_ne (Ne.symm h), List.filter_cons_of_pos (by simpa using Ne.symm h)]
      rfl

theorem length_assign (xs : List Argument) (values : List (String × String)) :
    (assign xs values).length = xs.length := by
  induction xs generalizing values with
  | nil => rw [assign_nil]
  | cons x xs ih => rw [assign_cons, List.length_cons, List.length_cons, ih]

/-- The argument at a place takes the last value listed for its name, unless one before it has the name. -/
theorem getElem?_assign (xs : List Argument) (values : List (String × String)) (i : Nat) :
    (assign xs values)[i]? =
      xs[i]?.map fun x => if x.name ∈ (xs.take i).map (·.name) then x else given values x := by
  induction xs generalizing values i with
  | nil => rw [assign_nil, List.getElem?_nil, Option.map_none]
  | cons x xs ih =>
    rw [assign_cons]
    cases i with
    | zero => simp only [List.getElem?_cons_zero, List.take_zero, List.map_nil, List.not_mem_nil, if_false,
        Option.map_some]
    | succ i =>
      rw [List.getElem?_cons_succ, List.getElem?_cons_succ, ih, List.take_succ_cons, List.map_cons]
      refine congrArg (Option.map · xs[i]?) (funext fun y => ?_)
      simp only [List.mem_cons]
      by_cases hy : y.name = x.name
      · -- all values of this name went to `x`
        have hnone : y.name ∉ (values.filter (·.1 ≠ x.name)).map Prod.fst := by
          rw [hy]
          simp
        rw [given_of_not_mem hnone, ite_self, if_pos (.inl hy)]
      · rw [given, lastListed?_filter_of_ne hy, ← given]
        simp only [hy, false_or]

/-- After values are set by name, the argument that is found has the last value listed for it. -/
theorem find?_assign (xs : List Argument) (values : List (String × String)) (name : String) :
    (assign xs values).find? (·.name == name) = (xs.find? (·.name == name)).map (given values) := by
  induction xs generalizing values with
  | nil =>
    rw [assign_nil]
    rfl
  | cons x xs ih =>
    rw [assign_cons, List.find?_cons, List.find?_cons]
    by_cases hx : x.name = name
    · have hg : (given values x).name = name := hx
      simp [hx, hg]
    · have hg : (given values x).name ≠ name := hx
      rw [beq_false_of_ne hg, beq_false_of_ne hx, ih]
      refine Option.map_congr fun y hy => ?_
      have hyname : y.name ≠ x.name := fun he => hx (he ▸ by simpa using List.find?_some hy)
      rw [given, lastListed?_filter_of_ne hyname, ← given]

theorem argument_eq_ok_iff_find? {a : Action} {x : Argument} :
    a.argument name = .ok x ↔ a.arguments.find? (·.name == name) = some x := by
  unfold argument
  cases a.arguments.find? (·.name == name) <;> simp

/-- What copying makes of an argument that stands behind others of these names. -/
inductive Copied (earlier : List String) (values : List (String × String)) (x : Argument) : Argument → Prop
  | filled {v : String} (first : x.name ∉ earlier) (h : LastListed values x.name v) :
    Copied earlier values x (x.setValue v)
  | unlisted (h : x.name ∉ values.map Prod.fst) : Copied earlier values x x
  | later (h : x.name ∈ earlier) : Copied earlier values x x

theorem copied_iff {earlier : List String} {x y : Argument} :
    Copied earlier values x y ↔ y = if x.name ∈ earlier then x else given values x := by
  constructor
  · intro h
    cases h with
    | filled first h => rw [if_neg first, given_of_lastListed h]
    | unlisted h => rw [given_of_not_mem h, ite_self]
    | later h => rw [if_pos h]
  · rintro rfl
    split
    · exact .later ‹_›
    · rename_i first
      cases hl : lastListed? values x.name with
      | none =>
        have hnot := lastListed?_eq_none.1 hl
        rw [given_of_not_mem hnot]
        exact .unlisted hnot
      | some v =>
        have hlast := lastListed?_eq_some.1 hl
        rw [given_of_lastListed hlast]
        exact .filled first hlast

/-- The second action is the first with values copied by name. -/
structure CopiedByName (values : List (String × String)) (a b : Action) : Prop where
  name : b.name = a.name
  service : b.service = a.service
  length : b.arguments.length = a.arguments.length
  arguments : ∀ (i : Nat) (x y : Argument), a.arguments[i]? = some x → b.arguments[i]? = some y →
    Copied ((a.arguments.take i).map (·.name)) values x y

theorem copiedByName_iff {a b : Action} :
    CopiedByName values a b ↔ b = { a with arguments := assign a.arguments values } := by
  constructor
  · rintro ⟨hname, hservice, hlength, harguments⟩
    have hassign : b.arguments = assign a.arguments values := by
      refine List.ext_getElem? fun i => ?_
      rw [getElem?_assign]
      cases hx : a.arguments[i]? with
      | none => rwa [Option.map_none, List.getElem?_eq_none_iff, hlength, ← List.getElem?_eq_none_iff]
      | some x =>
        have hi : i < b.arguments.length := hlength ▸ (List.getElem?_eq_some_iff.1 hx).1
        have hy := List.getElem?_eq_getElem hi
        rw [hy, copied_iff.1 (harguments i x _ hx hy), Option.map_some]
    obtain ⟨name, arguments, service⟩ := b
    cases hname
    cases hservice
    cases hassign
    rfl
  · rintro rfl
    refine ⟨rfl, rfl, length_assign a.arguments values, fun i x y hx hy => copied_iff.2 ?_⟩
    have hget := getElem?_assign a.arguments values i
    rw [show (assign a.arguments values)[i]? = some y from hy, hx, Option.map_some] at hget
    exact Option.some.inj hget

/-! ## Changing an action in place -/

/-- A change of an action in place: what was changed before an error stays changed. -/
abbrev InPlace := ExceptT ActionError (StateM Action)

/-- What the change comes to, and the action that it leaves. -/
def InPlace.on (change : InPlace Unit) (a : Action) : Except ActionError Unit × Action :=
  change.run.run a

/-- The change of an action comes to this result; if that is an error, the action is what it was. -/
def InPlace.Performs (change : InPlace Unit) (a : Action) (result : Except ActionError Action) : Prop :=
  change.on a = match result with
    | .ok b => (.ok (), b)
    | .error e => (.error e, a)

/-- Sets values one after the other; names that no argument has are passed over. -/
def InPlace.fill (values : List (String × String)) : InPlace Unit := do
  for p in values do
    modify (·.modifyArgument p.1 (·.setValue p.2))

/-- Sets the arguments that a message about an action gives values for. -/
def InPlace.setValues (name : String) (values : List (String × String)) : InPlace Unit := do
  let a ← get
  if name = a.name then fill values else throw (.nameMismatch a.name name)

theorem InPlace.on_fill (values : List (String × String)) (a : Action) :
    (fill values).on a = (.ok (), { a with arguments := assign a.arguments values }) := by
  induction values generalizing a with
  | nil => rfl
  | cons p values ih =>
    have hcons : (fill (p :: values)).on a = (fill values).on (a.modifyArgument p.1 (·.setValue p.2)) := by
      unfold fill
      rw [List.forIn_cons]
      rfl
    rw [hcons, ih]
    rfl

theorem InPlace.on_setValues (name : String) (values : List (String × String)) (a : Action) :
    (setValues name values).on a =
      if name = a.name then (fill values).on a else (.error (.nameMismatch a.name name), a) := by
  show (if name = a.name then fill values else throw (.nameMismatch a.name name) : InPlace Unit).on a = _
  split <;> rfl

theorem InPlace.performs_setValues (name : String) (values : List (String × String)) (a : Action) :
    (InPlace.setValues name values).Performs a (a.setValues name values) := by
  unfold Performs
  rw [on_setValues]
  by_cases h : name = a.name
  · subst h
    rw [if_pos rfl, setValues_eq, on_fill]
  · rw [if_neg h, Action.setValues, if_neg h]

/-! ## Copying -/

/-- Values that are listed under an action's own name are copied, and in one way only: the first argument of
each name takes the last value listed for it, and nothing else changes. Under any other name they are refused,
and the action stays what it was. -/
theorem setValues_copies (a : Action) (values : List (String × String)) :
    (∃ b, a.setValues a.name values = .ok b ∧ (InPlace.setValues a.name values).on a = (.ok (), b) ∧
      ∀ c, CopiedByName values a c ↔ c = b) ∧
    ∀ name, name ≠ a.name → a.setValues name values = .error (.nameMismatch a.name name) ∧
      (InPlace.setValues name values).on a = (.error (.nameMismatch a.name name), a) := by
  have hplace := fun name => InPlace.performs_setValues name values a
  unfold InPlace.Performs at hplace
  refine ⟨⟨_, setValues_eq a values, ?_, fun c => copiedByName_iff⟩, fun name h => ?_⟩
  · rw [hplace, setValues_eq]
  · have hrefused : a.setValues name values = .error (.nameMismatch a.name name) := if_neg h
    exact ⟨hrefused, by rw [hplace, hrefused]⟩

/-- An action with two arguments of one name. -/
def twoLevels : Action where
  name := "Set"
  arguments := [{ name := "Level", direction := .input }, { name := "Level", direction := .output, value := "0" },
    { name := "Ramp", direction := .input }]

/-- Values for them in another order, one of them repeated and one for no argument. -/
def levelValues : List (String × String) :=
  [("Ramp", "1"), ("Colour", "red"), ("Ramp", "2"), ("Level", "3")]

/-- The first level and the latest ramp are taken; a message about another action is refused. -/
theorem setValues_copies_twoLevels :
    (∃ b, twoLevels.setValues "Set" levelValues = .ok b ∧ CopiedByName levelValues twoLevels b ∧
      b.values = [("Level", "3"), ("Level", "0"), ("Ramp", "2")]) ∧
    "Get" ≠ twoLevels.name ∧
    twoLevels.setValues "Get" levelValues = .error (.nameMismatch "Set" "Get") ∧
    (InPlace.setValues "Get" levelValues).on twoLevels = (.error (.nameMismatch "Set" "Get"), twoLevels) := by
  obtain ⟨⟨b, hb, -, hcopied⟩, hother⟩ := setValues_copies twoLevels levelValues
  have hname : "Get" ≠ twoLevels.name := by decide
  refine ⟨⟨b, hb, (hcopied b).2 rfl, ?_⟩, hname, hother "Get" hname⟩
  cases hb
  rfl

end Upnp.Action
