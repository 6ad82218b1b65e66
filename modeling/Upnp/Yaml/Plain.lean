import Upnp.Text.Digit
import Upnp.Yaml.Value

/-
What the text of a scalar stands for. A plain scalar is null, a truth value or a number if it has
the form of one, and else a string; the tags of the core schema ask for one kind, and a scalar in
quotes is a string.
-/

namespace Upnp.Yaml

open Upnp.Decimal Upnp.Text

/-! ## Forms of plain text -/

def isNullWord (s : String) : Bool :=
  ["null", "Null", "NULL", "~"].contains s

def truthOf? (s : String) : Option Bool :=
  if ["true", "True", "TRUE"].contains s then some true
  else if ["false", "False", "FALSE"].contains s then some false
  else none

def dropPlus : List Char → List Char
  | '+' :: cs => cs
  | cs => cs

def startsWithSign : List Char → Bool
  | c :: _ => c == '+' || c == '-'
  | [] => false

/-- Digits behind a leading zero, with or without sign, are no number. -/
def hasLeadingZero (cs : List Char) : Bool :=
  match (if startsWithSign cs then cs.drop 1 else cs) with
  | '0' :: c :: ds => (c :: ds).all Char.isDigit
  | _ => false

/-- A number in the base that its first two characters name. -/
def basedNatural? : List Char → Option Nat
  | '0' :: 'x' :: ds => readDigits? 16 ds
  | '0' :: 'o' :: ds => readDigits? 8 ds
  | '0' :: 'b' :: ds => readDigits? 2 ds
  | _ => none

/-- The whole number that a text has the form of, of any size. -/
def wholeNumber? (cs : List Char) : Option Int :=
  let unsigned := dropPlus cs
  let decimal? (ds : List Char) := if hasLeadingZero cs then none else readDigits? 10 ds
  match unsigned with
  | '-' :: ds => if cs = unsigned then ((basedNatural? ds).or (decimal? ds)).map (-·) else none
  | ds => ((basedNatural? ds).or (decimal? ds)).map Int.ofNat

/-- The real number that a text has the form of; a number too large for one is none. -/
def realNumber? (cs : List Char) : Option Binary64 :=
  let unsigned := dropPlus cs
  let isOneOf (words : List String) (cs : List Char) := words.contains (String.ofList cs)
  if cs ≠ unsigned ∧ startsWithSign unsigned then none
  else if isOneOf [".inf", ".Inf", ".INF"] unsigned then some (.inf false)
  else if isOneOf ["-.inf", "-.Inf", "-.INF"] cs then some (.inf true)
  else if isOneOf [".nan", ".NaN", ".NAN"] cs then some (.nan false)
  else (readReal (String.ofList unsigned)).toOption.filter Binary64.isFinite

/-! ## Values -/

/-- Whole numbers that can be kept. -/
def keptIntegers : IntRange :=
  ⟨IntRange.signed64.least, IntRange.unsigned64.greatest⟩

/-- Whole numbers beyond the kept ones that are refused instead of being read as real numbers: of
128 bits, with or without sign. -/
def refusedIntegers : IntRange :=
  ⟨-0x80000000000000000000000000000000, 0xffffffffffffffffffffffffffffffff⟩

/-- What a text says as a whole number. -/
inductive Whole where
  | kept (n : Int)
  | refused
  | no

def wholeOf (cs : List Char) : Whole :=
  match wholeNumber? cs with
  | some n =>
    if keptIntegers.contains n then .kept n
    else if refusedIntegers.contains n then .refused
    else .no
  | none => .no

/-- The value of a plain scalar without tag. -/
def plainValue? (s : String) : Option Value :=
  let cs := s.toList
  if s.isEmpty || isNullWord s then some .null
  else
    match truthOf? s with
    | some b => some (.bool b)
    | none =>
      match wholeOf cs with
      | .kept n => some (.number (.int n))
      | .refused => none
      | .no =>
        match (if hasLeadingZero cs then none else realNumber? cs) with
        | some x => some (.number (.real x))
        | none => some (.string s)

/-- Whether a string is read back as such when it is written plain. -/
def readsAsString (s : String) : Bool :=
  match plainValue? s with
  | some (.string _) => !hasLeadingZero s.toList
  | _ => false

/-- What the handle of two exclamation marks stands for. -/
def coreTagStart : String := "tag:yaml.org,2002:"

def coreTag (kind : String) : String :=
  coreTagStart ++ kind

/-- A tag of the document's own without its exclamation mark. -/
def ownTag? (tag : String) : Option String :=
  match tag.toList with
  | '!' :: '!' :: c :: cs => some (String.ofList (c :: cs))
  | '!' :: cs => some (String.ofList cs)
  | _ => none

/-- The value of a scalar with a tag. -/
def taggedScalar? (tag : String) (isPlain : Bool) (s : String) : Option Value :=
  if tag = coreTag "bool" then (truthOf? s).map .bool
  else if tag = coreTag "int" then
    match wholeOf s.toList with
    | .kept n => some (.number (.int n))
    | _ => none
  else if tag = coreTag "float" then (realNumber? s.toList).map fun x => .number (.real x)
  else if tag = coreTag "null" then if isNullWord s then some .null else none
  else
    match ownTag? tag with
    | some name => (if isPlain then plainValue? s else some (.string s)).map (.tagged name)
    | none => some (.string s)

def scalarValue? (tag : Option String) (isPlain : Bool) (s : String) : Option Value :=
  match tag with
  | some tag => taggedScalar? tag isPlain s
  | none => if isPlain then plainValue? s else some (.string s)

end Upnp.Yaml
