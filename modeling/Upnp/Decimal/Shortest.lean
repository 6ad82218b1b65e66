import Upnp.Decimal.Binary64

/-
Shortest decimals. The reals that round to a double form an interval around it; the shortest
decimal is the first, over growing digit counts, of the two grid neighbours of the number that
lies in this interval, the nearer one if both do.
-/

namespace Upnp.Decimal

/-- Compares `a · 10 ^ p` with `b · 2 ^ q` exactly. -/
def compareScaled (a : Nat) (p : Int) (b : Nat) (q : Int) : Ordering :=
  compare (a * Nat.pow 10 p.toNat * Nat.pow 2 (-q).toNat)
    (b * Nat.pow 2 q.toNat * Nat.pow 10 (-p).toNat)

/-- What a decimal half way between its two neighbours is rounded to. -/
inductive Tie where
  | up
  | even
  deriving Repr, DecidableEq

/-- A positive decimal: `digits · 10 ^ scale`. -/
structure Digits where
  digits : Nat
  scale : Int
  deriving Repr, DecidableEq

namespace Digits

/-- The decimal digits, most significant first. -/
def chars (d : Digits) : List Char :=
  Nat.toDigits 10 d.digits

/-- The position of the decimal point behind the first digit's left edge. -/
def pointPosition (d : Digits) : Int :=
  d.chars.length + d.scale

/-- The same decimal without zeros at its end. -/
def normalize (d : Digits) : Digits :=
  go d.chars.length d
where
  go : Nat → Digits → Digits
    | 0, d => d
    | n + 1, d => if d.digits % 10 = 0 then go n ⟨d.digits / 10, d.scale + 1⟩ else d

end Digits

/-- The open interval of reals that round to `m · 2 ^ q`, in units of `2 ^ (q - 2)`; below a power
of two the spacing halves. -/
def lowerEnd (m : Nat) (q : Int) : Nat :=
  if m = Nat.pow 2 52 ∧ q > -1074 then 4 * m - 1 else 4 * m - 2

def upperEnd (m : Nat) : Nat :=
  4 * m + 2

/-- Whether `c · 10 ^ p` rounds to `m · 2 ^ q`; the ends belong to an even mantissa. -/
def roundsTo (m : Nat) (q : Int) (c : Nat) (p : Int) : Bool :=
  let low := compareScaled c p (lowerEnd m q) (q - 2)
  let high := compareScaled c p (upperEnd m) (q - 2)
  (low == .gt || (m % 2 == 0 && low == .eq)) && (high == .lt || (m % 2 == 0 && high == .eq))

/-- `⌊m · 2 ^ q / 10 ^ p⌋`. -/
def floorScaled (m : Nat) (q p : Int) : Nat :=
  m * Nat.pow 2 q.toNat * Nat.pow 10 (-p).toNat /
    (Nat.pow 2 (-q).toNat * Nat.pow 10 p.toNat)

/-- The nearer of `c` and `c + 1` to `m · 2 ^ q / 10 ^ p`, which lies between them. -/
def nearer (tie : Tie) (m : Nat) (q : Int) (c : Nat) (p : Int) : Nat :=
  match compareScaled (2 * c + 1) p (2 * m) q with
  | .lt => c + 1
  | .gt => c
  | .eq => if tie = .even ∧ c % 2 = 0 then c else c + 1

/-- The neighbour on the grid of `10 ^ p` that rounds to the number, if one does. -/
def onGrid? (tie : Tie) (m : Nat) (q p : Int) : Option Digits :=
  let c := floorScaled m q p
  match roundsTo m q c p, roundsTo m q (c + 1) p with
  | true, true => some ⟨nearer tie m q c p, p⟩
  | true, false => some ⟨c, p⟩
  | false, true => some ⟨c + 1, p⟩
  | false, false => none

/-- Tries grids from coarse to fine. -/
def firstOnGrid (tie : Tie) (m : Nat) (q : Int) : Nat → Int → Digits
  | 0, p => ⟨floorScaled m q p, p⟩
  | n + 1, p => (onGrid? tie m q p).getD (firstOnGrid tie m q n (p - 1))

/-- An exponent of ten at least as large as the number's own. -/
def topExponent (m : Nat) (q : Int) : Int :=
  ((m.log2 : Int) + 1 + q) * 30103 / 100000 + 1

/-- The shortest decimal that rounds to the positive number `m · 2 ^ q`. -/
def shortest (tie : Tie) (m : Nat) (q : Int) : Digits :=
  (firstOnGrid tie m q 20 (topExponent m q)).normalize

end Upnp.Decimal
