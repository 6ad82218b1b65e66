/-
Undertakings of several parts, each of which is tried whatever became of the others. Of the errors
the last one is reported.
-/

namespace Upnp

/-- What came of an undertaking: an error, if there was one. -/
abbrev Outcome (ε : Type) := Except ε Unit

namespace Outcome

variable {ε : Type}

/-- What is reported of a part and another one after it: the error of the later one, else that of
the earlier one. -/
def andThen (earlier later : Outcome ε) : Outcome ε :=
  match later with
  | .ok () => earlier
  | .error e => .error e

/-- Undertakes something with each of several things, the first being at place `k`: what each part
gives, and what is reported of all. -/
def each {α β : Type} (f : Nat → α → β × Outcome ε) (k : Nat) : List α → List β × Outcome ε
  | [] => ([], .ok ())
  | x :: rest =>
    let (y, outcome) := f k x
    let (ys, last) := each f (k + 1) rest
    (y :: ys, outcome.andThen last)

end Outcome

end Upnp
