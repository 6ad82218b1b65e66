/-
Double precision numbers as bit patterns. A finite number is `mantissa · 2 ^ exponent` with exact
integers; a decimal `digits · 10 ^ scale` is rounded to the nearest such number, a tie going to
the even mantissa.
-/

namespace Upnp.Decimal

/-- A double precision number, by its bits. -/
structure Binary64 where
  bits : UInt64
  deriving Repr, DecidableEq

namespace Binary64

def isNegative (x : Binary64) : Bool :=
  x.bits.toNat ≥ Nat.pow 2 63

/-- The bits without the sign. -/
def magnitude (x : Binary64) : Nat :=
  x.bits.toNat % Nat.pow 2 63

/-- The magnitude of infinity; every larger one is no number. -/
def infinite : Nat := 0x7FF * Nat.pow 2 52

def isFinite (x : Binary64) : Bool :=
  x.magnitude < infinite

def isNaN (x : Binary64) : Bool :=
  x.magnitude > infinite

/-- The mantissa and the exponent of two of a finite number's magnitude. -/
def mantissaExponent (x : Binary64) : Nat × Int :=
  let biased : Nat := x.magnitude / Nat.pow 2 52
  let fraction : Nat := x.magnitude % Nat.pow 2 52
  if biased = 0 then (fraction, -1074) else (fraction + Nat.pow 2 52, (biased : Int) - 1075)

/-- The number with the given sign and magnitude. -/
def ofMagnitude (negative : Bool) (magnitude : Nat) : Binary64 :=
  ⟨UInt64.ofNat ((if negative then Nat.pow 2 63 else 0) + magnitude)⟩

def inf (negative : Bool) : Binary64 :=
  ofMagnitude negative infinite

def nan (negative : Bool) : Binary64 :=
  ofMagnitude negative (infinite + Nat.pow 2 51)

/-! ## Rounding -/

/-- The quotient rounded to the nearest integer, ties to even. -/
def roundDiv (num den : Nat) : Nat :=
  let q := num / den
  let r := num % den
  if 2 * r > den ∨ (2 * r = den ∧ q % 2 = 1) then q + 1 else q

/-- `num / den · 2 ^ (-exponent)` as a quotient. -/
def scaleDown (num den : Nat) (exponent : Int) : Nat × Nat :=
  if exponent ≥ 0 then (num, den * Nat.pow 2 exponent.toNat)
  else (num * Nat.pow 2 (-exponent).toNat, den)

/-- The exponent that leaves 53 bits before the point, not below that of the subnormal numbers. -/
def exponentFor (num den : Nat) : Int :=
  let guess : Int := (num.log2 : Int) - (den.log2 : Int) - 52
  let (n, d) := scaleDown num den guess
  let exact := if n / d < Nat.pow 2 52 then guess - 1 else guess
  max exact (-1074)

/-- The magnitude nearest to a positive quotient. -/
def roundQuotient (num den : Nat) : Nat :=
  let e := exponentFor num den
  let (n, d) := scaleDown num den e
  min infinite ((e + 1074).toNat * Nat.pow 2 52 + roundDiv n d)

/-- The double nearest to `digits · 10 ^ scale`. -/
def ofDecimal (negative : Bool) (digits : Nat) (scale : Int) : Binary64 :=
  let width : Int := (Nat.toDigits 10 digits).length
  if digits = 0 then ofMagnitude negative 0
  else if scale + width > 400 then inf negative
  else if scale + width < -400 then ofMagnitude negative 0
  else if scale ≥ 0 then ofMagnitude negative (roundQuotient (digits * Nat.pow 10 scale.toNat) 1)
  else ofMagnitude negative (roundQuotient digits (Nat.pow 10 (-scale).toNat))

end Binary64

end Upnp.Decimal
