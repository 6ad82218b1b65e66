import Upnp.Proofs.Markup.Content

/-
What stands in front of the root of a document: the XML declaration, comments, instructions and white space,
and a document type declaration with more of these behind it. A declaration is passed over as a whole if the
brackets in it nest; a byte order mark at the very front is not counted as text.
-/

namespace Upnp.Markup

open Upnp.Text Upnp.Xml

/-! ## Document type declarations -/

/-- A text in which angle brackets nest. -/
inductive Nested : List Char → Prop
  | nil : Nested []
  | plain {c : Char} {cs : List Char} (hc : c ≠ '<' ∧ c ≠ '>') (h : Nested cs) : Nested (c :: cs)
  | group {inner cs : List Char} (hi : Nested inner) (h : Nested cs) : Nested ('<' :: (inner ++ '>' :: cs))

theorem spanDoctype_cons (depth : Nat) (c : Char) (cs : List Char) : spanDoctype depth (c :: cs) =
    if c = '>' ∧ depth = 0 then some ([], cs)
    else (spanDoctype (if c = '<' then depth + 1 else if c = '>' then depth - 1 else depth) cs).map
      fun (content, rest) => (c :: content, rest) :=
  rfl

/-- Brackets that nest leave the depth as it was, and so end no declaration. -/
theorem Nested.spanDoctype {cs : List Char} (h : Nested cs) (depth : Nat) (rest : List Char) :
    spanDoctype depth (cs ++ rest) = (spanDoctype depth rest).map fun (content, rest) => (cs ++ content, rest) := by
  induction h generalizing depth rest with
  | nil => simp
  | plain hc _ ih =>
    rw [List.cons_append, spanDoctype_cons, if_neg fun h => hc.2 h.1, if_neg hc.1, if_neg hc.2, ih, Option.map_map]
    rfl
  | @group inner cs _ _ ihi ih =>
    have hopen : ¬ ('<' = '>' ∧ depth = 0) := fun h => absurd h.1 (by decide)
    have hclose : ¬ ('>' = '>' ∧ depth + 1 = 0) := fun h => Nat.succ_ne_zero depth h.2
    rw [List.cons_append, List.append_assoc, List.cons_append, spanDoctype_cons, if_neg hopen, if_pos rfl, ihi,
      spanDoctype_cons, if_neg hclose, if_neg (by decide), if_pos rfl, Nat.add_sub_cancel, ih]
    simp only [Option.map_map]
    exact congrArg (fun f => Option.map f _) (funext fun _ => by simp)

/-- A document type declaration, by what stands in it behind its keyword. -/
structure Doctype where
  content : List Char
  nested : Nested content
  notBlank : content.all isSpace = false

namespace Doctype

def chars (d : Doctype) : List Char :=
  "<!DOCTYPE".toList ++ (d.content ++ ['>'])

theorem lexed (d : Doctype) (rest : List Char) : Lexed d.chars rest [⟨.aside, d.chars⟩] := by
  have hspan : spanDoctype 0 (d.content ++ '>' :: rest) = some (d.content, rest) := by
    rw [d.nested.spanDoctype, spanDoctype_cons, if_pos ⟨rfl, rfl⟩]
    simp
  refine Lexed.single (List.cons_ne_nil _ _) ?_
  unfold chars
  rw [List.append_assoc, List.append_assoc, List.singleton_append]
  generalize d.content ++ '>' :: rest = cs at hspan
  have hword : startsWithWord "doctype" ("DOCTYPE".toList ++ cs) = true := rfl
  show (if startsWithWord "doctype" ("DOCTYPE".toList ++ cs) = true then (spanDoctype 0 cs).bind _ else none) = _
  rw [if_pos hword, hspan, Option.bind_some]
  simp only [d.notBlank, Bool.false_eq_true, if_false]

end Doctype

/-! ## Prologs -/

/-- There are no elements in the content: it is text, references, raw passages, comments and instructions. -/
def Content.IsCharacterData (m : Content) : Prop :=
  m.elements = []

/-- What stands in front of the root of a document. -/
inductive Prolog where
  | untyped (front : Content) (h : front.IsCharacterData)
  | typed (front : Content) (doctype : Doctype) (behind : Content) (hf : front.IsCharacterData)
    (hb : behind.IsCharacterData)

namespace Prolog

def chars : Prolog → List Char
  | .untyped front _ => front.chars
  | .typed front doctype behind _ _ => front.chars ++ (doctype.chars ++ behind.chars)

def lexemes : Prolog → List Lexeme
  | .untyped front _ => front.lexemes
  | .typed front doctype behind _ _ => front.lexemes ++ (⟨.aside, doctype.chars⟩ :: behind.lexemes)

theorem lexed (p : Prolog) {rest : List Char} (hr : EndsText rest) : Lexed p.chars rest p.lexemes := by
  cases p with
  | untyped front _ => exact front.lexed hr
  | typed front doctype behind _ _ =>
    exact (front.lexed (endsText_markup _)).append ((doctype.lexed _).append (behind.lexed hr))

theorem balanced (p : Prolog) : Balanced p.lexemes := by
  cases p with
  | untyped front _ => exact front.balanced
  | typed front doctype behind _ _ => exact front.balanced.append (.leaf rfl behind.balanced)

/-- The prolog without a byte order mark at its front. -/
def withoutMark : Prolog → Prolog
  | .untyped front h => .untyped front.withoutMark (front.elements_withoutMark.trans h)
  | .typed front doctype behind hf hb =>
    .typed front.withoutMark doctype behind (front.elements_withoutMark.trans hf) hb

theorem chars_withoutMark (p : Prolog) : p.withoutMark.chars = Markup.withoutMark p.chars := by
  cases p with
  | untyped front _ => exact front.chars_withoutMark
  | typed front doctype behind _ _ =>
    show front.withoutMark.chars ++ _ = _
    rw [front.chars_withoutMark]
    exact (withoutMark_append front.chars (endsText_markup _)).symm

end Prolog

end Upnp.Markup
