import Upnp.Proofs.Markup.Escape
import Upnp.Proofs.Markup.Nesting

/-
Element content as the grammar of XML has it, with all that the grammar leaves to the writer: white
space in tags, both kinds of quotes, characters by reference, raw passages, comments and instructions.
No well-formed content is left out; restrictions of the grammar that the reading does not depend on are
not made. Characters stand for themselves as they are written, line ends included. Content is well
formed by the proofs that it carries, and its text is lexed piece by piece as what it was built from,
whatever stands behind it.
-/

namespace Upnp.Markup

open Upnp.Text Upnp.Xml

/-! ## References -/

/-- Digits in a base and the number they make. -/
inductive Numeral (base : Nat) : List Char → Nat → Prop
  | digit {d : Char} {n : Nat} (h : digitIn? base d = some n) : Numeral base [d] n
  | more {ds : List Char} {d : Char} {m n : Nat} (h : Numeral base ds m) (hd : digitIn? base d = some n) :
    Numeral base (ds ++ [d]) (m * base + n)

def predefinedNames : List (String × Char) :=
  [("lt", '<'), ("gt", '>'), ("amp", '&'), ("apos", '\''), ("quot", '"')]

/-- A name by which a reference names a character. -/
inductive Names (c : Char) : List Char → Prop
  | predefined {name : String} (h : (name, c) ∈ predefinedNames) : Names c name.toList
  | decimal {ds : List Char} (hc : isXmlChar c = true) (h : Numeral 10 ds c.toNat) : Names c ('#' :: ds)
  | hexadecimal {ds : List Char} (hc : isXmlChar c = true) (h : Numeral 16 ds c.toNat) :
    Names c ('#' :: 'x' :: ds)

namespace Numeral

variable {base n : Nat} {ds : List Char}

theorem ne_nil (h : Numeral base ds n) : ds ≠ [] := by
  cases h with
  | digit => exact List.cons_ne_nil _ _
  | more => exact List.append_ne_nil_of_right_ne_nil _ (List.cons_ne_nil _ _)

theorem digit_of_mem (h : Numeral base ds n) : ∀ d ∈ ds, (digitIn? base d).isSome = true := by
  induction h with
  | digit h =>
    intro d hd
    rw [List.mem_singleton.1 hd, h]
    rfl
  | more _ hd ih =>
    intro e he
    rcases List.mem_append.1 he with he | he
    · exact ih e he
    · rw [List.mem_singleton.1 he, hd]
      rfl

theorem foldlM (h : Numeral base ds n) :
    ds.foldlM (fun acc c => (digitIn? base c).map (acc * base + ·)) 0 = some n := by
  induction h with
  | digit h => simp [h]
  | more _ hd ih => simp [List.foldlM_append, ih, hd]

theorem readDigits? (h : Numeral base ds n) : readDigits? base ds = some n := by
  unfold Text.readDigits?
  rw [List.isEmpty_eq_false_iff.2 h.ne_nil, if_neg Bool.false_ne_true, h.foldlM]

end Numeral

theorem charOfNat?_toNat (c : Char) : charOfNat? c.toNat = some c := by
  unfold charOfNat?
  rw [if_pos (show c.toNat.isValidChar from c.valid), Char.ofNat_toNat]

theorem toNat_ne_zero_of_isXmlChar {c : Char} (h : isXmlChar c = true) : c.toNat ≠ 0 := by
  intro h0
  unfold isXmlChar at h
  rw [h0] at h
  exact absurd h (by decide)

theorem charOfNumber?_of_toNat {c : Char} (hc : isXmlChar c = true) :
    (if c.toNat = 0 then none else charOfNat? c.toNat) = some c := by
  rw [if_neg (toNat_ne_zero_of_isXmlChar hc), charOfNat?_toNat]

namespace Names

/-- A name of a character is resolved to that character. -/
theorem referenced? {c : Char} {name : List Char} (h : Names c name) : referenced? name = some c := by
  cases h with
  | predefined h =>
    simp only [predefinedNames, List.mem_cons, Prod.mk.injEq, List.not_mem_nil, or_false] at h
    rcases h with ⟨rfl, rfl⟩ | ⟨rfl, rfl⟩ | ⟨rfl, rfl⟩ | ⟨rfl, rfl⟩ | ⟨rfl, rfl⟩ <;> decide
  | @decimal ds hc h =>
    show charOfNumber? ds = some c
    have hx : ∀ r, ds ≠ 'x' :: r := by
      rintro r rfl
      exact absurd (h.digit_of_mem 'x' List.mem_cons_self) (by decide)
    unfold charOfNumber?
    split
    · exact absurd rfl (hx _)
    · rw [h.readDigits?]
      exact charOfNumber?_of_toNat hc
  | @hexadecimal ds hc h =>
    show charOfNumber? ('x' :: ds) = some c
    unfold charOfNumber?
    simp only [h.readDigits?]
    exact charOfNumber?_of_toNat hc

/-- No name holds a character that ends it or starts markup. -/
theorem plain {c : Char} {name : List Char} (h : Names c name) : ∀ d ∈ name, d ≠ ';' ∧ d ≠ '&' ∧ d ≠ '<' := by
  have hdigits : ∀ {base : Nat} {ds : List Char} {n : Nat}, Numeral base ds n → ∀ d ∈ ds, d ≠ ';' ∧ d ≠ '&' ∧ d ≠ '<' := by
    intro base ds n hn d hd
    have hsome := hn.digit_of_mem d hd
    refine ⟨?_, ?_, ?_⟩ <;> rintro rfl <;> exact absurd hsome (by simp [digitIn?])
  cases h with
  | predefined h =>
    simp only [predefinedNames, List.mem_cons, Prod.mk.injEq, List.not_mem_nil, or_false] at h
    rcases h with ⟨rfl, rfl⟩ | ⟨rfl, rfl⟩ | ⟨rfl, rfl⟩ | ⟨rfl, rfl⟩ | ⟨rfl, rfl⟩ <;>
      exact plainName_of_all (by decide)
  | decimal hc h =>
    intro d hd
    rcases List.mem_cons.1 hd with rfl | hd
    · decide
    · exact hdigits h d hd
  | hexadecimal hc h =>
    intro d hd
    rcases List.mem_cons.1 hd with rfl | hd
    · decide
    · rcases List.mem_cons.1 hd with rfl | hd
      · decide
      · exact hdigits h d hd

end Names

/-- A reference to a character. -/
structure Reference where
  char : Char
  name : List Char
  names : Names char name

namespace Reference

def chars (r : Reference) : List Char :=
  '&' :: (r.name ++ [';'])

theorem escape (r : Reference) : Escape r.char r.chars :=
  .reference r.name r.names.plain r.names.referenced?

end Reference

/-! ## Tags -/

structure Space where
  chars : List Char
  isSpace : ∀ c ∈ chars, isSpace c = true

def qualified (qualifier : Option (List Char)) (base : List Char) : List Char :=
  match qualifier with
  | some q => q ++ ':' :: base
  | none => base

/-- A name, cut at its first colon. -/
structure Name where
  qualifier : Option (List Char)
  base : List Char
  isName : isName (qualified qualifier base) = true
  firstColon : ':' ∉ qualifier.getD base

namespace Name

def chars (n : Name) : List Char :=
  qualified n.qualifier n.base

theorem localName_chars (n : Name) : localName n.chars = n.base := by
  obtain ⟨qualifier, base, hn, hc⟩ := n
  cases qualifier with
  | some q => exact localName_append hc base
  | none => exact localName_of_not_mem hc

end Name

/-- A character of an attribute's value, by itself or by reference. -/
inductive ValueChar where
  | plain (c : Char) (h : c ≠ '<' ∧ c ≠ '&')
  | reference (r : Reference)

namespace ValueChar

def char : ValueChar → Char
  | .plain c _ => c
  | .reference r => r.char

def chars : ValueChar → List Char
  | .plain c _ => [c]
  | .reference r => r.chars

theorem escapes (vs : List ValueChar) : Escapes (vs.map char) (vs.flatMap chars) := by
  induction vs with
  | nil => exact .nil
  | cons v vs ih =>
    rw [List.map_cons, List.flatMap_cons]
    cases v with
    | plain c h => exact .cons (.plain h) ih
    | reference r => exact .cons r.escape ih

end ValueChar

structure TagAttribute where
  gap : Space
  name : List Char
  before : Space
  after : Space
  quote : Char
  value : List ValueChar
  gap_ne_nil : gap.chars ≠ []
  isName : isName name = true
  isQuote : quote = '"' ∨ quote = '\''
  quote_not_mem : quote ∉ value.flatMap ValueChar.chars

namespace TagAttribute

def chars (a : TagAttribute) : List Char :=
  attributeChars a.gap.chars a.name a.before.chars a.after.chars a.quote (a.value.flatMap ValueChar.chars)

/-- The text that the value stands for. -/
def text (a : TagAttribute) : List Char :=
  a.value.map ValueChar.char

/-- The attribute is named `xmlns` or `xmlns:` and more. -/
def DeclaresNamespace (a : TagAttribute) : Prop :=
  a.name = "xmlns".toList ∨ "xmlns:".toList <+: a.name

instance (a : TagAttribute) : Decidable a.DeclaresNamespace :=
  inferInstanceAs (Decidable (_ ∨ _))

/-- The attribute as it is read. -/
def read (a : TagAttribute) : Attribute :=
  ⟨a.name, a.value.flatMap ValueChar.chars⟩

theorem isNamespace_read (a : TagAttribute) : a.read.isNamespace = decide a.DeclaresNamespace := by
  rw [Bool.eq_iff_iff, decide_eq_true_iff]
  unfold Attribute.isNamespace DeclaresNamespace read
  rw [Bool.or_eq_true, beq_iff_eq, List.isPrefixOf_iff_prefix]

theorem text?_read (a : TagAttribute) : a.read.text? = some (String.ofList a.text) :=
  (ValueChar.escapes a.value).text? a.name

/-- Attributes of different names are read one after the other. -/
theorem readAttributes_flatMap (space : Space) (as : List TagAttribute) (fuel : Nat) (seen : List (List Char))
    (hf : (as.flatMap chars ++ space.chars).length ≤ fuel) (hd : (as.map name).Nodup) (hs : ∀ a ∈ as, a.name ∉ seen) :
    readAttributes fuel seen (as.flatMap chars ++ space.chars) = as.map fun a => .ok a.read := by
  induction as generalizing fuel seen with
  | nil =>
    have hspace := (takeWhile_append_of_head (p := Xml.isSpace) (b := []) space.isSpace fun c hc => by cases hc).2
    rw [List.append_nil] at hspace
    rw [List.flatMap_nil, List.nil_append, readAttributes.eq_def, hspace]
    cases fuel <;> rfl
  | cons a as ih =>
    rw [List.map_cons, List.nodup_cons] at hd
    rw [List.flatMap_cons, List.append_assoc, List.length_append] at hf
    have hlen : 0 < a.chars.length := by
      unfold chars attributeChars
      simp only [List.length_append, List.length_cons]
      omega
    obtain ⟨fuel, rfl⟩ : ∃ f, fuel = f + 1 := ⟨fuel - 1, by omega⟩
    have hread := readAttributes_attributeChars a.gap.isSpace a.isName a.before.isSpace a.after.isSpace a.isQuote
      a.quote_not_mem fuel (hs a List.mem_cons_self) (as.flatMap chars ++ space.chars)
    rw [List.flatMap_cons, List.append_assoc]
    refine hread.trans (congrArg _ (ih fuel (a.name :: seen) (by omega) hd.2 fun b hb hm => ?_))
    rcases List.mem_cons.1 hm with hm | hm
    · exact hd.1 (hm ▸ List.mem_map_of_mem hb)
    · exact hs b (List.mem_cons_of_mem a hb) hm

theorem firstNamespace_map (as : List TagAttribute) :
    firstNamespace (as.map fun a => .ok a.read) =
      .ok ((as.find? fun a => a.DeclaresNamespace).map fun a => String.ofList a.text) := by
  induction as with
  | nil => rfl
  | cons a as ih =>
    rw [List.map_cons, firstNamespace, isNamespace_read, text?_read]
    by_cases h : a.DeclaresNamespace
    · rw [List.find?_cons, decide_eq_true h]
      rfl
    · rw [List.find?_cons, decide_eq_false h, if_neg Bool.false_ne_true, ih]

end TagAttribute

/-- What stands in the tag of an element between its brackets. -/
structure ElementTag where
  name : Name
  attributes : List TagAttribute
  space : Space
  distinct : (attributes.map TagAttribute.name).Nodup

namespace ElementTag

def behindName (t : ElementTag) : List Char :=
  t.attributes.flatMap TagAttribute.chars ++ t.space.chars

/-- The value of the first attribute that declares a namespace. -/
def namespace? (t : ElementTag) : Option (List Char) :=
  (t.attributes.find? fun a => a.DeclaresNamespace).map TagAttribute.text

/-- The tag that opens the element. -/
def opening (t : ElementTag) : Lexeme :=
  ⟨.opening t.name.chars t.behindName, '<' :: (t.name.chars ++ t.behindName) ++ ['>']⟩

/-- The tag as the whole of an element. -/
def empty (t : ElementTag) : Lexeme :=
  ⟨.empty t.name.chars t.behindName, '<' :: (t.name.chars ++ t.behindName) ++ "/>".toList⟩

def closing (t : ElementTag) (space : Space) : Lexeme :=
  ⟨.closing t.name.chars, "</".toList ++ (t.name.chars ++ space.chars) ++ ['>']⟩

theorem behindName_behindName (t : ElementTag) : BehindName t.behindName := by
  unfold behindName
  induction t.attributes with
  | nil => exact .space t.space.isSpace
  | cons a as ih =>
    rw [List.flatMap_cons, List.append_assoc]
    exact ih.cons a.gap_ne_nil a.gap.isSpace a.isName a.before.isSpace a.after.isSpace a.isQuote a.quote_not_mem

theorem namespaceOf_behindName (t : ElementTag) :
    namespaceOf t.behindName = .ok (t.namespace?.map String.ofList) := by
  unfold namespaceOf attributesOf behindName
  rw [TagAttribute.readAttributes_flatMap t.space t.attributes _ [] (Nat.le_refl _) t.distinct
    fun _ _ => List.not_mem_nil, TagAttribute.firstNamespace_map]
  unfold namespace?
  rw [Option.map_map]
  rfl

end ElementTag

/-! ## Between the tags -/

theorem withoutMark_append (a : List Char) {b : List Char} (hb : EndsText b) :
    Markup.withoutMark (a ++ b) = Markup.withoutMark a ++ b := by
  cases a with
  | nil =>
    cases b with
    | nil => rfl
    | cons c b =>
      refine withoutMark_of_ne ?_
      rintro rfl
      exact absurd (hb byteOrderMark rfl) (by decide)
  | cons c a =>
    by_cases hc : c = byteOrderMark
    · rw [hc]
      rfl
    · rw [withoutMark_of_ne hc, List.cons_append, withoutMark_of_ne hc]

/-- Characters that stand for themselves. -/
structure TextRun where
  chars : List Char
  isText : ∀ c ∈ chars, c ≠ '<' ∧ c ≠ '&'

namespace TextRun

def lexemes (run : TextRun) : List Lexeme :=
  if run.chars = [] then [] else [⟨.text run.chars, run.chars⟩]

theorem lexed (run : TextRun) {rest : List Char} (hr : EndsText rest) : Lexed run.chars rest run.lexemes := by
  unfold lexemes
  split
  · rename_i h
    rw [h]
    exact Lexed.nil rest
  · rename_i h
    exact lexed_text h (fun c hc => isTextChar_iff.2 (run.isText c hc)) hr

theorem balanced (run : TextRun) : Balanced run.lexemes := by
  unfold lexemes
  split
  · exact .nil
  · exact .leaf rfl .nil

/-- The run without a byte order mark at its front. -/
def withoutMark (run : TextRun) : TextRun where
  chars := Markup.withoutMark run.chars
  isText c hc := run.isText c ((withoutMark_suffix run.chars).subset hc)

end TextRun

/-- What stands between text runs besides elements. -/
inductive Piece where
  | reference (r : Reference)
  | cdata (content : List Char) (h : ¬ "]]>".toList <:+: content)
  | comment (content : List Char) (h : ¬ "-->".toList <:+: content)
  /-- The target of a processing instruction with what is behind it. -/
  | instruction (content : List Char) (h : ¬ "?>".toList <:+: '?' :: content)

namespace Piece

def chars : Piece → List Char
  | .reference r => r.chars
  | .cdata content _ => "<![CDATA[".toList ++ (content ++ "]]>".toList)
  | .comment content _ => "<!--".toList ++ (content ++ "-->".toList)
  | .instruction content _ => "<?".toList ++ (content ++ "?>".toList)

/-- What the piece adds to the text of the element around it. -/
def text : Piece → List Char
  | .reference r => [r.char]
  | .cdata content _ => content
  | .comment _ _ => []
  | .instruction _ _ => []

def token : Piece → Token
  | .reference r => .reference r.name
  | .cdata content _ => .cdata content
  | .comment _ _ => .aside
  | .instruction _ _ => .aside

def lexeme (p : Piece) : Lexeme :=
  ⟨p.token, p.chars⟩

theorem isLeaf_token (p : Piece) : p.token.isLeaf = true := by
  cases p <;> rfl

theorem endsText (p : Piece) (rest : List Char) : EndsText (p.chars ++ rest) := by
  intro c hc
  cases p <;> cases hc <;> decide

theorem lexed (p : Piece) (rest : List Char) : Lexed p.chars rest [p.lexeme] := by
  cases p with
  | reference r => exact lexed_reference r.names.plain rest
  | cdata content h => exact lexed_cdata h rest
  | comment content h => exact lexed_comment h rest
  | instruction content h => exact lexed_instruction h rest

end Piece

/-! ## Content -/

/-- What stands in an element, or in place of one. -/
inductive Content where
  | text (run : TextRun)
  | piece (run : TextRun) (p : Piece) (rest : Content)
  | empty (run : TextRun) (tag : ElementTag) (rest : Content)
  | element (run : TextRun) (tag : ElementTag) (inner : Content) (space : Space) (rest : Content)

namespace Content

def chars : Content → List Char
  | .text run => run.chars
  | .piece run p rest => run.chars ++ (p.chars ++ rest.chars)
  | .empty run tag rest => run.chars ++ (tag.empty.source ++ rest.chars)
  | .element run tag inner space rest =>
    run.chars ++ (tag.opening.source ++ (inner.chars ++ ((tag.closing space).source ++ rest.chars)))

/-- The elements at the top, each with its content. -/
def elements : Content → List (ElementTag × Content)
  | .text _ => []
  | .piece _ _ rest => rest.elements
  | .empty _ tag rest => (tag, .text ⟨[], fun _ h => absurd h List.not_mem_nil⟩) :: rest.elements
  | .element _ tag inner _ rest => (tag, inner) :: rest.elements

/-- The text outside the elements at the top. -/
def ownText : Content → List Char
  | .text run => run.chars
  | .piece run p rest => run.chars ++ (p.text ++ rest.ownText)
  | .empty run _ rest => run.chars ++ rest.ownText
  | .element run _ _ _ rest => run.chars ++ rest.ownText

def lexemes : Content → List Lexeme
  | .text run => run.lexemes
  | .piece run p rest => run.lexemes ++ ([p.lexeme] ++ rest.lexemes)
  | .empty run tag rest => run.lexemes ++ ([tag.empty] ++ rest.lexemes)
  | .element run tag inner space rest =>
    run.lexemes ++ ([tag.opening] ++ (inner.lexemes ++ ([tag.closing space] ++ rest.lexemes)))

/-- Content is lexed as its lexemes wherever a text run would end. -/
theorem lexed (m : Content) {rest : List Char} (hr : EndsText rest) : Lexed m.chars rest m.lexemes := by
  induction m generalizing rest with
  | text run => exact run.lexed hr
  | piece run p _ ih =>
    refine (run.lexed ?_).append ((p.lexed _).append (ih hr))
    rw [List.append_assoc]
    exact p.endsText _
  | empty run tag _ ih =>
    exact (run.lexed (endsText_markup _)).append
      ((lexed_empty tag.name.isName tag.behindName_behindName _).append (ih hr))
  | element run tag inner space _ ihi ih =>
    refine (run.lexed (endsText_markup _)).append (.append (lexed_opening tag.name.isName tag.behindName_behindName _) ?_)
    exact (ihi (endsText_markup _)).append ((lexed_closing tag.name.isName space.isSpace _).append (ih hr))

theorem balanced (m : Content) : Balanced m.lexemes := by
  induction m with
  | text run => exact run.balanced
  | piece run p _ ih => exact run.balanced.append (.leaf p.isLeaf_token ih)
  | empty run tag _ ih => exact run.balanced.append (.leaf rfl ih)
  | element run tag inner space _ ihi ih => exact run.balanced.append (.element ihi ih)

/-- The content without a byte order mark at its front. -/
def withoutMark : Content → Content
  | .text run => .text run.withoutMark
  | .piece run p rest => .piece run.withoutMark p rest
  | .empty run tag rest => .empty run.withoutMark tag rest
  | .element run tag inner space rest => .element run.withoutMark tag inner space rest

theorem elements_withoutMark (m : Content) : m.withoutMark.elements = m.elements := by
  cases m <;> rfl

theorem chars_withoutMark (m : Content) : m.withoutMark.chars = Markup.withoutMark m.chars := by
  cases m with
  | text run => rfl
  | piece run p rest => exact (withoutMark_append run.chars (p.endsText _)).symm
  | empty run tag rest => exact (withoutMark_append run.chars (endsText_markup _)).symm
  | element run tag inner space rest => exact (withoutMark_append run.chars (endsText_markup _)).symm

/-- Content by itself is read as its lexemes, but for a byte order mark. -/
theorem lexemes_chars (m : Content) : Markup.lexemes m.chars = m.withoutMark.lexemes := by
  refine lexemes_eq ?_ m.withoutMark.balanced
  rw [← chars_withoutMark]
  exact m.withoutMark.lexed endsText_nil

/-! ## Content that differs in prefixes -/

/-- The same content but for the prefixes of elements' names, the attributes, and white space in tags. -/
inductive Alike : Content → Content → Prop
  | text (run : TextRun) : Alike (.text run) (.text run)
  | piece (run : TextRun) (p : Piece) {rest rest' : Content} (h : Alike rest rest') :
    Alike (.piece run p rest) (.piece run p rest')
  | empty (run : TextRun) {tag tag' : ElementTag} {rest rest' : Content} (hb : tag.name.base = tag'.name.base)
    (h : Alike rest rest') : Alike (.empty run tag rest) (.empty run tag' rest')
  | element (run : TextRun) {tag tag' : ElementTag} {inner inner' rest rest' : Content} (space space' : Space)
    (hb : tag.name.base = tag'.name.base) (hi : Alike inner inner') (h : Alike rest rest') :
    Alike (.element run tag inner space rest) (.element run tag' inner' space' rest')

theorem Alike.refl (m : Content) : m.Alike m := by
  induction m with
  | text run => exact .text run
  | piece run p _ ih => exact .piece run p ih
  | empty run tag _ ih => exact .empty run rfl ih
  | element run tag inner space _ ihi ih => exact .element run space space rfl ihi ih

theorem Alike.ownText {m m' : Content} (h : m.Alike m') : m.ownText = m'.ownText := by
  induction h with
  | text run => rfl
  | piece run p _ ih => exact congrArg (fun cs => run.chars ++ (p.text ++ cs)) ih
  | empty run _ _ ih => exact congrArg (fun cs => run.chars ++ cs) ih
  | element run _ _ _ _ _ _ ih => exact congrArg (fun cs => run.chars ++ cs) ih

end Content

end Upnp.Markup
