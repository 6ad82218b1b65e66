import Upnp.Decimal.Integer
import Upnp.Decimal.Shortest

/-
Decimal texts of double precision numbers, read and written. Two written forms are used: plain
positional text for action arguments, and text with an exponent outside a window for
configuration values.
-/

namespace Upnp.Decimal

/-- Why a text is no real number. -/
inductive RealError where
  | empty
  | invalid
  deriving Repr, DecidableEq

def RealError.message : RealError → String
  | .empty => "cannot parse float from empty string"
  | .invalid => "invalid float literal"

/-! ## Reading -/

/-- The leading decimal digits of a text and what follows them. -/
def spanDigits (cs : List Char) : List Char × List Char :=
  (cs.takeWhile Char.isDigit, cs.dropWhile Char.isDigit)

def digitsNat (cs : List Char) : Nat :=
  cs.foldl (fun acc c => acc * 10 + (c.toNat - 48)) 0

/-- An exponent behind its mark: optional sign and at least one digit. -/
def readExponent? (cs : List Char) : Option Int :=
  let (negative, ds) := match cs with
    | '-' :: r => (true, r)
    | '+' :: r => (false, r)
    | r => (false, r)
  if ds.isEmpty || !ds.all Char.isDigit then none
  else
    let n : Int := digitsNat ds
    some (if negative then -n else n)

/-- Digits with an optional point and an optional exponent. -/
def readUnsignedReal? (negative : Bool) (cs : List Char) : Option Binary64 :=
  let (whole, rest) := spanDigits cs
  let (fraction, rest) := match rest with
    | '.' :: r => spanDigits r
    | r => ([], r)
  if whole.isEmpty && fraction.isEmpty then none
  else
    let exponent? := match rest with
      | [] => some 0
      | c :: r => if c = 'e' ∨ c = 'E' then readExponent? r else none
    exponent?.map fun e =>
      Binary64.ofDecimal negative (digitsNat (whole ++ fraction)) (e - fraction.length)

/-- The words for infinity and for no number, in any case. -/
def readRealWord? (negative : Bool) (cs : List Char) : Option Binary64 :=
  let word := String.ofList (cs.map Char.toLower)
  if word = "inf" ∨ word = "infinity" then some (.inf negative)
  else if word = "nan" then some (.nan negative)
  else none

/-- Reads a real number, correctly rounded. -/
def readReal (s : String) : Except RealError Binary64 :=
  match s.toList with
  | [] => .error .empty
  | c :: r =>
    let negative := c = '-'
    let body := if c = '-' ∨ c = '+' then r else c :: r
    match (readUnsignedReal? negative body).orElse fun _ => readRealWord? negative body with
    | some x => .ok x
    | none => .error .invalid

/-! ## Writing -/

/-- How real numbers are written. -/
structure RealFormat where
  tie : Tie
  /-- Whether a number with its point at this position is written without exponent. -/
  positional : Int → Bool
  /-- The text behind a whole number without exponent. -/
  wholeEnd : String
  zero : String
  infinity : String
  noNumber : String

/-- Always positional, whole numbers without point: the text of an action argument. -/
def RealFormat.plain : RealFormat :=
  ⟨.up, fun _ => true, "", "0", "inf", "NaN"⟩

/-- Positional within sixteen digits before and five zeros behind the point, else with exponent:
the text of a configuration value. -/
def RealFormat.compact : RealFormat :=
  ⟨.even, fun point => -5 < point && point ≤ 16, ".0", "0.0", ".inf", ".nan"⟩

def zeros (n : Int) : List Char :=
  List.replicate n.toNat '0'

/-- The digits with the decimal point put in. -/
def writePositional (wholeEnd : String) (ds : List Char) (point : Int) : List Char :=
  if point ≤ 0 then '0' :: '.' :: zeros (-point) ++ ds
  else if point < ds.length then ds.take point.toNat ++ '.' :: ds.drop point.toNat
  else ds ++ zeros (point - ds.length) ++ wholeEnd.toList

def writeScientific (ds : List Char) (point : Int) : List Char :=
  let mantissa := match ds with
    | [] => []
    | [d] => [d]
    | d :: r => d :: '.' :: r
  mantissa ++ 'e' :: (showInt (point - 1)).toList

/-- The text of a positive finite number. -/
def RealFormat.writePositive (f : RealFormat) (x : Binary64) : List Char :=
  let (m, q) := x.mantissaExponent
  let d := shortest f.tie m q
  if f.positional d.pointPosition then writePositional f.wholeEnd d.chars d.pointPosition
  else writeScientific d.chars d.pointPosition

def RealFormat.write (f : RealFormat) (x : Binary64) : String :=
  let sign := if x.isNegative then "-" else ""
  if x.isNaN then f.noNumber
  else if !x.isFinite then sign ++ f.infinity
  else if x.magnitude = 0 then sign ++ f.zero
  else sign ++ String.ofList (f.writePositive x)

end Upnp.Decimal
