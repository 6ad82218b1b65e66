import Mathlib.Tactic.Common
import Upnp.Outcome

/-
What is reported of an undertaking of several parts: that all went well, or the last error. Reports of
one run of parts and of the next make the report of both.
-/

namespace Upnp.Outcome

variable {ε : Type} {parts others : List (Outcome ε)} {o p : Outcome ε}

/-- What is reported of parts in this order. -/
inductive Reports : List (Outcome ε) → Outcome ε → Prop
  | fine {parts : List (Outcome ε)} (h : ∀ x ∈ parts, x = .ok ()) : Reports parts (.ok ())
  | last {before after : List (Outcome ε)} {e : ε} (h : ∀ x ∈ after, x = .ok ()) :
    Reports (before ++ .error e :: after) (.error e)

/-- The error that was met, if any was. -/
def error? : Outcome ε → Option ε
  | .ok () => none
  | .error e => some e

theorem filterMap_error?_eq_nil (h : ∀ x ∈ parts, x = .ok ()) : parts.filterMap error? = [] :=
  List.filterMap_eq_nil_iff.2 fun x hx => h x hx ▸ rfl

theorem getLast?_filterMap_error? {before after : List (Outcome ε)} {e : ε} (h : ∀ x ∈ after, x = .ok ()) :
    ((before ++ .error e :: after).filterMap error?).getLast? = some e := by
  rw [List.filterMap_append, List.filterMap_cons_some (rfl : error? (.error e) = some e), filterMap_error?_eq_nil h,
    List.getLast?_concat]

namespace Reports

theorem nil : Reports [] (.ok () : Outcome ε) :=
  .fine fun _ h => absurd h List.not_mem_nil

theorem single (o : Outcome ε) : Reports [o] o := by
  cases o with
  | ok u => exact .fine fun x hx => List.mem_singleton.1 hx
  | error e => exact @last ε [] [] e fun _ h => absurd h List.not_mem_nil

theorem append (h : Reports parts o) (h' : Reports others p) : Reports (parts ++ others) (o.andThen p) := by
  cases h' with
  | fine hfine =>
    cases h with
    | fine hparts =>
      exact .fine fun x hx => (List.mem_append.1 hx).elim (hparts x) (hfine x)
    | @last before after e hafter =>
      rw [List.append_assoc, List.cons_append]
      exact .last fun x hx => (List.mem_append.1 hx).elim (hafter x) (hfine x)
  | @last before after e hafter =>
    rw [← List.append_assoc]
    exact .last hafter

theorem cons (h : Reports parts p) (o : Outcome ε) : Reports (o :: parts) (o.andThen p) :=
  (single o).append h

theorem eq_ok_iff (h : Reports parts o) : o = .ok () ↔ ∀ x ∈ parts, x = .ok () := by
  cases h with
  | fine h => exact iff_of_true rfl h
  | last h =>
    refine iff_of_false nofun fun hall => ?_
    exact absurd (hall _ List.mem_append_cons_self) nofun

theorem mem_of_error {e : ε} (h : Reports parts (.error e)) : (.error e : Outcome ε) ∈ parts := by
  cases h with
  | last h => exact List.mem_append_cons_self

/-- Of the errors, the last one is reported. -/
theorem eq_last (h : Reports parts o) : o = (parts.filterMap error?).getLast?.elim (.ok ()) .error := by
  cases h with
  | fine h => rw [filterMap_error?_eq_nil h]; rfl
  | last h => rw [getLast?_filterMap_error? h]; rfl

/-- An error is reported if all parts behind it went well. -/
theorem eq_error {before after : List (Outcome ε)} {e : ε} (h : Reports (before ++ .error e :: after) o)
    (hafter : ∀ x ∈ after, x = .ok ()) : o = .error e := by
  rw [h.eq_last, getLast?_filterMap_error? hafter]
  rfl

end Reports

/-! ## One part after the other -/

section

variable {α β : Type} (f : Nat → α → β × Outcome ε)

theorem each_fst (k : Nat) (xs : List α) : (each f k xs).1 = (xs.zipIdx k).map fun p => (f p.2 p.1).1 := by
  induction xs generalizing k with
  | nil => rfl
  | cons x xs ih => exact congrArg ((f k x).1 :: ·) (ih (k + 1))

/-- Of all parts the last error is reported. -/
theorem reports_each (k : Nat) (xs : List α) : Reports ((xs.zipIdx k).map fun p => (f p.2 p.1).2) (each f k xs).2 := by
  induction xs generalizing k with
  | nil => exact .nil
  | cons x xs ih => exact (ih (k + 1)).cons _

end

end Upnp.Outcome
