/-
Decimal texts of integers in a range. A text is an optional sign and decimal digits; reading goes
from the left and stops at the first character that is no digit or at the first digit that leaves
the range, whichever comes first.
-/

namespace Upnp.Decimal

/-- A range of integers; a minus sign is a sign only where negative numbers exist. -/
structure IntRange where
  least : Int
  greatest : Int
  deriving Repr, DecidableEq

namespace IntRange

def signed64 : IntRange := ⟨-9223372036854775808, 9223372036854775807⟩
def unsigned64 : IntRange := ⟨0, 18446744073709551615⟩
def unsigned32 : IntRange := ⟨0, 4294967295⟩
def unsigned16 : IntRange := ⟨0, 65535⟩

def isSigned (r : IntRange) : Bool :=
  r.least < 0

def contains (r : IntRange) (n : Int) : Bool :=
  r.least ≤ n && n ≤ r.greatest

end IntRange

/-- Why a text is no integer of a range. -/
inductive IntegerError where
  | empty
  | invalidDigit
  | tooLarge
  | tooSmall
  deriving Repr, DecidableEq

def IntegerError.message : IntegerError → String
  | .empty => "cannot parse integer from empty string"
  | .invalidDigit => "invalid digit found in string"
  | .tooLarge => "number too large to fit in target type"
  | .tooSmall => "number too small to fit in target type"

/-- The value of an ASCII decimal digit. -/
def digit? (c : Char) : Option Nat :=
  if c.isDigit then some (c.toNat - 48) else none

/-- Continues a number upwards with the digits of a text, up to `greatest`. -/
def readUp (greatest : Int) : Int → List Char → Except IntegerError Int
  | acc, [] => .ok acc
  | acc, c :: cs =>
    match digit? c with
    | none => .error .invalidDigit
    | some d =>
      let next := acc * 10 + d
      if next ≤ greatest then readUp greatest next cs else .error .tooLarge

/-- Continues a number downwards with the digits of a text, down to `least`. -/
def readDown (least : Int) : Int → List Char → Except IntegerError Int
  | acc, [] => .ok acc
  | acc, c :: cs =>
    match digit? c with
    | none => .error .invalidDigit
    | some d =>
      let next := acc * 10 - d
      if least ≤ next then readDown least next cs else .error .tooSmall

/-- Reads an integer of a range. -/
def readIntChars (r : IntRange) : List Char → Except IntegerError Int
  | [] => .error .empty
  | ['+'] => .error .invalidDigit
  | ['-'] => .error .invalidDigit
  | '+' :: cs => readUp r.greatest 0 cs
  | '-' :: cs => if r.isSigned then readDown r.least 0 cs else .error .invalidDigit
  | cs => readUp r.greatest 0 cs

def readInt (r : IntRange) (s : String) : Except IntegerError Int :=
  readIntChars r s.toList

/-- Reads an integer of a range, or nothing. -/
def readInt? (r : IntRange) (s : String) : Option Int :=
  (readInt r s).toOption

/-- The decimal text of an integer. -/
def showInt (n : Int) : String :=
  match n with
  | .ofNat n => showNat n
  | .negSucc n => "-" ++ showNat (n + 1)
where
  showNat (n : Nat) : String := String.ofList (Nat.toDigits 10 n)

end Upnp.Decimal
