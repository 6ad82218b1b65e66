/-
UTF-8 text. Decoding runs one octet at a time: a lead octet says how many octets are owed and what
bounds the next one has, and an octet out of bounds ends the character under way and starts anew.
Every run of octets is thereby cut into characters and maximal invalid parts, from which both the
strict and the replacing decoder are read off.
-/

namespace Upnp.Text.Utf8

abbrev Octets := List UInt8

/-! ## Pieces -/

/-- What a part of an octet sequence is. -/
inductive Piece where
  | scalar (c : Char)
  /-- `size` octets that begin no character. -/
  | invalid (size : Nat)
  /-- The sequence ends after `size` octets of a character. -/
  | truncated (size : Nat)
  deriving Repr, DecidableEq

/-- A character under way: octets still owed, bounds on the next one, its bits and octets so far. -/
structure Pending where
  owed : Nat
  low : Nat
  high : Nat
  bits : Nat
  size : Nat
  deriving Repr, DecidableEq

/-- Reads the first octet of a character. -/
def lead (b : UInt8) : Piece ⊕ Pending :=
  let n := b.toNat
  if n < 0x80 then .inl (.scalar (Char.ofNat n))
  else if n < 0xC2 then .inl (.invalid 1)
  else if n < 0xE0 then .inr ⟨1, 0x80, 0xBF, n - 0xC0, 1⟩
  else if n = 0xE0 then .inr ⟨2, 0xA0, 0xBF, 0, 1⟩
  else if n = 0xED then .inr ⟨2, 0x80, 0x9F, 0xD, 1⟩
  else if n < 0xF0 then .inr ⟨2, 0x80, 0xBF, n - 0xE0, 1⟩
  else if n = 0xF0 then .inr ⟨3, 0x90, 0xBF, 0, 1⟩
  else if n < 0xF4 then .inr ⟨3, 0x80, 0xBF, n - 0xF0, 1⟩
  else if n = 0xF4 then .inr ⟨3, 0x80, 0x8F, 4, 1⟩
  else .inl (.invalid 1)

/-- The pieces of an octet sequence, with a character possibly under way. -/
def piecesFrom : Option Pending → Octets → List Piece
  | none, [] => []
  | some p, [] => [.truncated p.size]
  | none, b :: bs =>
    match lead b with
    | .inl piece => piece :: piecesFrom none bs
    | .inr p => piecesFrom (some p) bs
  | some p, b :: bs =>
    let n := b.toNat
    if p.low ≤ n ∧ n ≤ p.high then
      let bits := p.bits * 64 + n % 64
      if p.owed = 1 then .scalar (Char.ofNat bits) :: piecesFrom none bs
      else piecesFrom (some ⟨p.owed - 1, 0x80, 0xBF, bits, p.size + 1⟩) bs
    else
      .invalid p.size ::
        match lead b with
        | .inl piece => piece :: piecesFrom none bs
        | .inr q => piecesFrom (some q) bs

def pieces (bs : Octets) : List Piece :=
  piecesFrom none bs

/-! ## Encoding -/

/-- The octets of one character. -/
def encodeChar (c : Char) : Octets :=
  let n := c.toNat
  if n < 0x80 then [UInt8.ofNat n]
  else if n < 0x800 then [UInt8.ofNat (0xC0 + n / 64), UInt8.ofNat (0x80 + n % 64)]
  else if n < 0x10000 then
    [UInt8.ofNat (0xE0 + n / 4096), UInt8.ofNat (0x80 + n / 64 % 64), UInt8.ofNat (0x80 + n % 64)]
  else
    [UInt8.ofNat (0xF0 + n / 262144), UInt8.ofNat (0x80 + n / 4096 % 64),
      UInt8.ofNat (0x80 + n / 64 % 64), UInt8.ofNat (0x80 + n % 64)]

def encodeChars (cs : List Char) : Octets :=
  cs.flatMap encodeChar

/-- The octets of a text. -/
def encode (s : String) : Octets :=
  encodeChars s.toList

/-- The number of octets of a text. -/
def size (s : String) : Nat :=
  (encode s).length

/-! ## Decoding -/

/-- Where and how an octet sequence fails to be UTF-8. -/
structure Error where
  /-- The octets before this position are valid. -/
  validUpTo : Nat
  /-- The length of the invalid part; absent when the sequence only ends too early. -/
  invalidSize : Option Nat
  deriving Repr, DecidableEq

def Error.message (e : Error) : String :=
  match e.invalidSize with
  | some n => s!"invalid utf-8 sequence of {n} bytes from index {e.validUpTo}"
  | none => s!"incomplete utf-8 byte sequence from index {e.validUpTo}"

/-- The characters of the pieces up to the first that is none, which starts at octet `pos`. -/
def collect : Nat → List Piece → Except Error (List Char)
  | _, [] => .ok []
  | pos, .scalar c :: ps => (collect (pos + (encodeChar c).length) ps).map (c :: ·)
  | pos, .invalid n :: _ => .error ⟨pos, some n⟩
  | pos, .truncated _ :: _ => .error ⟨pos, none⟩

/-- Strict decoding. -/
def decodeChars (bs : Octets) : Except Error (List Char) :=
  collect 0 (pieces bs)

def decode (bs : Octets) : Except Error String :=
  (decodeChars bs).map String.ofList

/-- The character of a piece, `mark` standing for an invalid part. -/
def Piece.toChar (mark : Char) : Piece → Char
  | .scalar c => c
  | _ => mark

/-- Decoding that puts a mark for each maximal invalid part. -/
def decodeMarking (mark : Char) (bs : Octets) : List Char :=
  (pieces bs).map (Piece.toChar mark)

/-- The character that stands for an invalid part. -/
def replacement : Char := '\uFFFD'

/-- Decoding that puts one replacement character for each maximal invalid part. -/
def decodeLossyChars (bs : Octets) : List Char :=
  decodeMarking replacement bs

def decodeLossy (bs : Octets) : String :=
  String.ofList (decodeLossyChars bs)

end Upnp.Text.Utf8
