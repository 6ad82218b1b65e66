/-
Cutting sequences at a separator. `splitOnce?` cuts at the first occurrence, `splitAll` at every
occurrence from the left, and joining the pieces with the separator gives the sequence back.
-/

namespace Upnp.Text

variable {α : Type} [BEq α]

/-- The parts before and after the first occurrence of `sep`. -/
def splitOnce? (sep : List α) : List α → Option (List α × List α)
  | [] => if sep.isEmpty then some ([], []) else none
  | x :: xs =>
    if sep.isPrefixOf (x :: xs) then some ([], (x :: xs).drop sep.length)
    else (splitOnce? sep xs).map fun (before, after) => (x :: before, after)

/-- The position of the first occurrence of `sep`. -/
def indexOf? (sep xs : List α) : Option Nat :=
  (splitOnce? sep xs).map (·.1.length)

/-- Puts an element in front of the first piece. -/
def pushHead (x : α) : List (List α) → List (List α)
  | [] => [[x]]
  | piece :: rest => (x :: piece) :: rest

/-- Splits at each occurrence of `sep`, the first `skip` elements being left out. -/
def splitSkipping (sep : List α) : Nat → List α → List (List α)
  | _, [] => [[]]
  | skip + 1, _ :: xs => splitSkipping sep skip xs
  | 0, x :: xs =>
    if sep.isPrefixOf (x :: xs) then [] :: splitSkipping sep (sep.length - 1) xs
    else pushHead x (splitSkipping sep 0 xs)

/-- The pieces between the occurrences of `sep`, taken from the left without overlap. -/
def splitAll (sep : List α) (xs : List α) : List (List α) :=
  splitSkipping sep 0 xs

/-- The pieces of a text between the occurrences of a separator. -/
def splitText (sep s : String) : List String :=
  (splitAll sep.toList s.toList).map String.ofList

/-- The parts of a text before and after the first occurrence of a separator. -/
def splitTextOnce? (sep s : String) : Option (String × String) :=
  (splitOnce? sep.toList s.toList).map fun (a, b) => (String.ofList a, String.ofList b)

/-- The parts of a text before and after the last occurrence of a character. -/
def splitTextLast? (c : Char) (s : String) : Option (String × String) :=
  (splitOnce? [c] s.toList.reverse).map fun (a, b) =>
    (String.ofList b.reverse, String.ofList a.reverse)

/-- The text without `pre` at its front, if it starts so. -/
def stripStart? (pre s : String) : Option String :=
  if pre.toList.isPrefixOf s.toList then some (String.ofList (s.toList.drop pre.toList.length))
  else none

/-- The text without `suf` at its end, if it ends so. -/
def stripEnd? (suf s : String) : Option String :=
  if suf.toList.isSuffixOf s.toList then
    some (String.ofList (s.toList.take (s.toList.length - suf.toList.length)))
  else none

/-- ASCII letters in upper case, all other characters as they are. -/
def upperAscii (s : String) : String :=
  String.ofList (s.toList.map Char.toUpper)

/-- ASCII letters in lower case, all other characters as they are. -/
def lowerAscii (s : String) : String :=
  String.ofList (s.toList.map Char.toLower)

/-- Equality of texts up to the case of ASCII letters. -/
def eqIgnoringAsciiCase (s t : String) : Bool :=
  lowerAscii s == lowerAscii t

theorem splitSkipping_ne_nil (sep : List α) (skip : Nat) (xs : List α) :
    splitSkipping sep skip xs ≠ [] := by
  fun_induction splitSkipping sep skip xs with
  | case1 => simp
  | case2 _ _ _ ih => exact ih
  | case3 => simp
  | case4 x xs _ ih =>
    cases h : splitSkipping sep 0 xs with
    | nil => exact absurd h ih
    | cons _ _ => simp [pushHead]

end Upnp.Text
