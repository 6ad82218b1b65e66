import Upnp.Action.Basic

/-
Passing values between actions. A message carries the values of one direction by name; among
arguments of distinct names each value arrives where it came from, and no other argument changes.
-/

namespace Upnp.Action

/-- Name and direction of an argument. -/
def signature (x : Argument) : String × Direction :=
  (x.name, x.direction)

/-- The actions have the same name and the same arguments up to their values and types. -/
structure SameShape (a b : Action) : Prop where
  name : a.name = b.name
  arguments : a.arguments.map signature = b.arguments.map signature

theorem SameShape.symm {a b : Action} (h : a.SameShape b) : b.SameShape a :=
  ⟨h.name.symm, h.arguments.symm⟩

theorem SameShape.trans {a b c : Action} (h : a.SameShape b) (g : b.SameShape c) : a.SameShape c :=
  ⟨h.name.trans g.name, h.arguments.trans g.arguments⟩

/-- The names of the arguments. -/
def argumentNames (a : Action) : List String :=
  a.arguments.map (·.name)

theorem SameShape.argumentNames {a b : Action} (h : a.SameShape b) : a.argumentNames = b.argumentNames := by
  have hn := congrArg (List.map Prod.fst) h.arguments
  rwa [List.map_map, List.map_map] at hn

/-- Only values differ. -/
structure SameBesidesValues (a b : Action) : Prop where
  name : a.name = b.name
  service : a.service = b.service
  arguments : a.arguments.map (·.setValue "") = b.arguments.map (·.setValue "")

theorem SameBesidesValues.shape {a b : Action} (h : a.SameBesidesValues b) : a.SameShape b := by
  refine ⟨h.name, ?_⟩
  have hs := congrArg (List.map signature) h.arguments
  rw [List.map_map, List.map_map] at hs
  exact hs

/-! ## Taking values by position -/

/-- Arguments with the values that others have at their places, as far as they are of a direction. -/
def takeArguments (d : Direction) (xs ys : List Argument) : List Argument :=
  List.zipWith (fun x y => if x.direction = d then x.setValue y.value else x) xs ys

/-- The action with the values that another has for the arguments of a direction. -/
def takeValues (d : Direction) (a b : Action) : Action :=
  { a with arguments := takeArguments d a.arguments b.arguments }

theorem takeArguments_signature (d : Direction) : ∀ {xs ys : List Argument},
    xs.map signature = ys.map signature → (takeArguments d xs ys).map signature = xs.map signature
  | [], [], _ => rfl
  | x :: xs, y :: ys, h => by
    rw [List.map_cons, List.map_cons, List.cons.injEq] at h
    have hx : signature (if x.direction = d then x.setValue y.value else x) = signature x := by
      split <;> rfl
    show signature _ :: (takeArguments d xs ys).map signature = _
    rw [takeArguments_signature d h.2, hx, List.map_cons]

theorem takeValues_sameShape {a b : Action} (h : a.SameShape b) (d : Direction) : (a.takeValues d b).SameShape a :=
  ⟨rfl, takeArguments_signature d h.arguments⟩

theorem takeArguments_sameBesidesValues (d : Direction) : ∀ {xs ys : List Argument},
    xs.map signature = ys.map signature → xs.map (·.setValue "") = (takeArguments d xs ys).map (·.setValue "")
  | [], [], _ => rfl
  | x :: xs, y :: ys, h => by
    rw [List.map_cons, List.map_cons, List.cons.injEq] at h
    have hx : (if x.direction = d then x.setValue y.value else x).setValue "" = x.setValue "" := by
      split <;> rfl
    show _ = Argument.setValue _ "" :: (takeArguments d xs ys).map (·.setValue "")
    rw [hx, ← takeArguments_sameBesidesValues d h.2, List.map_cons]

theorem takeValues_sameBesidesValues {a b : Action} (h : a.SameShape b) (d : Direction) :
    a.SameBesidesValues (a.takeValues d b) :=
  ⟨rfl, rfl, takeArguments_sameBesidesValues d h.arguments⟩

/-- Names and values of the arguments of a direction in a list. -/
def valuesOf (d : Direction) (xs : List Argument) : List (String × String) :=
  (xs.filter (·.direction == d)).map fun x => (x.name, x.value)

theorem valuesIn_eq (a : Action) (d : Direction) : a.valuesIn d = valuesOf d a.arguments :=
  rfl

theorem valuesOf_cons_of_eq {d : Direction} {y : Argument} (h : y.direction = d) (ys : List Argument) :
    valuesOf d (y :: ys) = (y.name, y.value) :: valuesOf d ys := by
  unfold valuesOf
  rw [List.filter_cons_of_pos (by simpa using h), List.map_cons]

theorem valuesOf_cons_of_ne {d : Direction} {y : Argument} (h : y.direction ≠ d) (ys : List Argument) :
    valuesOf d (y :: ys) = valuesOf d ys := by
  unfold valuesOf
  rw [List.filter_cons_of_neg (by simpa using h)]

theorem valuesOf_takeArguments (d : Direction) : ∀ {xs ys : List Argument},
    xs.map signature = ys.map signature → valuesOf d (takeArguments d xs ys) = valuesOf d ys
  | [], [], _ => rfl
  | x :: xs, y :: ys, h => by
    rw [List.map_cons, List.map_cons, List.cons.injEq] at h
    obtain ⟨hname, hdir⟩ := Prod.mk.inj h.1
    have ih := valuesOf_takeArguments d h.2
    show valuesOf d ((if x.direction = d then x.setValue y.value else x) :: takeArguments d xs ys) = _
    by_cases hd : x.direction = d
    · rw [if_pos hd, valuesOf_cons_of_eq (y := x.setValue y.value) hd, ih, valuesOf_cons_of_eq (hdir ▸ hd)]
      show (x.name, y.value) :: _ = _
      rw [hname]
    · rw [if_neg hd, valuesOf_cons_of_ne hd, ih, valuesOf_cons_of_ne (hdir ▸ hd)]

/-- What was taken is what the other has. -/
theorem valuesIn_takeValues {a b : Action} (h : a.SameShape b) (d : Direction) :
    (a.takeValues d b).valuesIn d = b.valuesIn d :=
  valuesOf_takeArguments d h.arguments

theorem takeArguments_others (d : Direction) : ∀ {xs ys : List Argument}, xs.map signature = ys.map signature →
    (takeArguments d xs ys).filter (·.direction != d) = xs.filter (·.direction != d)
  | [], [], _ => rfl
  | x :: xs, y :: ys, h => by
    rw [List.map_cons, List.map_cons, List.cons.injEq] at h
    have ih := takeArguments_others d h.2
    show ((if x.direction = d then x.setValue y.value else x) :: takeArguments d xs ys).filter _ = _
    by_cases hd : x.direction = d
    · have hneg : (x.direction != d) = false := by rw [hd, bne_self_eq_false]
      rw [if_pos hd, List.filter_cons, List.filter_cons, ih, hneg]
      show (if (x.direction != d) = true then _ else _) = _
      rw [hneg]
      rfl
    · rw [if_neg hd, List.filter_cons, List.filter_cons, ih]

/-- The arguments of other directions stay as they are. -/
theorem takeValues_others {a b : Action} (h : a.SameShape b) (d : Direction) :
    (a.takeValues d b).arguments.filter (·.direction != d) = a.arguments.filter (·.direction != d) :=
  takeArguments_others d h.arguments

/-! ## Setting values by name -/

/-- Sets values by name, one after the other. -/
def assign (xs : List Argument) (values : List (String × String)) : List Argument :=
  values.foldl (fun xs (n, v) => modifyFirst n (·.setValue v) xs) xs

theorem foldl_modifyArgument (values : List (String × String)) (a : Action) :
    values.foldl (fun a (n, v) => a.modifyArgument n (·.setValue v)) a =
      { a with arguments := assign a.arguments values } := by
  induction values generalizing a with
  | nil => rfl
  | cons p values ih =>
    rw [List.foldl_cons, ih]
    rfl

theorem setValues_eq (a : Action) (values : List (String × String)) :
    a.setValues a.name values = .ok { a with arguments := assign a.arguments values } := by
  unfold setValues
  rw [if_pos rfl, foldl_modifyArgument]

/-- Values of other names leave the first argument alone. -/
theorem assign_cons_of_not_mem {x : Argument} {values : List (String × String)} (h : x.name ∉ values.map Prod.fst)
    (xs : List Argument) : assign (x :: xs) values = x :: assign xs values := by
  induction values generalizing xs with
  | nil => rfl
  | cons p values ih =>
    rw [List.map_cons, List.mem_cons, not_or] at h
    show assign (modifyFirst p.1 _ (x :: xs)) values = _
    rw [modifyFirst, if_neg h.1, ih h.2]
    rfl

theorem assign_cons_self {x : Argument} (v : String) {values : List (String × String)}
    (h : x.name ∉ values.map Prod.fst) (xs : List Argument) :
    assign (x :: xs) ((x.name, v) :: values) = x.setValue v :: assign xs values := by
  show assign (modifyFirst x.name _ (x :: xs)) values = _
  rw [modifyFirst, if_pos rfl]
  exact assign_cons_of_not_mem (x := x.setValue v) h xs

theorem names_valuesOf_subset (d : Direction) (ys : List Argument) :
    (valuesOf d ys).map Prod.fst ⊆ ys.map (·.name) := by
  intro n hn
  unfold valuesOf at hn
  rw [List.map_map] at hn
  obtain ⟨y, hy, rfl⟩ := List.mem_map.1 hn
  exact List.mem_map_of_mem (List.mem_filter.1 hy).1

/-- Values by name arrive at their places when names are distinct. -/
theorem assign_valuesOf (d : Direction) : ∀ {xs ys : List Argument}, xs.map signature = ys.map signature →
    (xs.map (·.name)).Nodup → assign xs (valuesOf d ys) = takeArguments d xs ys
  | [], [], _, _ => rfl
  | x :: xs, y :: ys, h, hn => by
    rw [List.map_cons, List.map_cons, List.cons.injEq] at h
    rw [List.map_cons, List.nodup_cons] at hn
    obtain ⟨hname, hdir⟩ := Prod.mk.inj h.1
    have ih := assign_valuesOf d h.2 hn.2
    have hnames : xs.map (·.name) = ys.map (·.name) := by
      have hf := congrArg (List.map Prod.fst) h.2
      rwa [List.map_map, List.map_map] at hf
    -- none of the later values is of this name, so the first argument keeps what it got
    have hnot : x.name ∉ (valuesOf d ys).map Prod.fst := fun hm =>
      hn.1 (hnames ▸ names_valuesOf_subset d ys hm)
    show _ = (if x.direction = d then x.setValue y.value else x) :: takeArguments d xs ys
    by_cases hd : x.direction = d
    · rw [if_pos hd, valuesOf_cons_of_eq (hdir ▸ hd), ← show x.name = y.name from hname, assign_cons_self _ hnot, ih]
    · rw [if_neg hd, valuesOf_cons_of_ne (hdir ▸ hd), assign_cons_of_not_mem hnot, ih]

/-- A message with the values of one action sets them in another of the same shape. -/
theorem setValues_valuesIn {a b : Action} (h : a.SameShape b) (hn : a.argumentNames.Nodup) (d : Direction) :
    a.setValues a.name (b.valuesIn d) = .ok (a.takeValues d b) := by
  rw [setValues_eq, valuesIn_eq, assign_valuesOf d h.arguments hn]
  rfl

end Upnp.Action
