import Upnp.Proofs.Markup.Prolog
import Upnp.Proofs.Soap.Body

/-
The body of an arbitrary envelope. Whatever stands in the body is given back character for character, however
the document around it is written; but the body is looked for by its name alone, so an element of the name that
stands in front of it, at any depth of the header, is taken instead, and an empty element with the name of an
envelope ends the search. Where the header has neither, and only there, every body is found.
-/

namespace Upnp.Soap

open Upnp.Text Upnp.Markup Upnp.Xml

/-! ## Envelopes -/

/-- An envelope document with a place for the content of its body. -/
structure Envelope where
  prolog : Prolog
  tag : ElementTag
  /-- What stands in front of the body: the header, if there is one, with all that is in it. -/
  front : Content
  bodyTag : ElementTag
  bodySpace : Space
  behind : Content
  space : Space
  epilog : Content
  isEnvelope : tag.name.base = "Envelope".toList
  isBody : bodyTag.name.base = "Body".toList

/-- The markup of a body; one that is written as a single tag has none. -/
def markup (body : Option Content) : List Char :=
  (body.map Content.chars).getD []

namespace Envelope

variable (e : Envelope) (body : Option Content)

def bodyChars : Option Content → List Char
  | none => e.bodyTag.empty.source
  | some m => e.bodyTag.opening.source ++ (m.chars ++ (e.bodyTag.closing e.bodySpace).source)

def bodyLexemes : Option Content → List Lexeme
  | none => [e.bodyTag.empty]
  | some m => e.bodyTag.opening :: (m.lexemes ++ [e.bodyTag.closing e.bodySpace])

def rootChars : List Char :=
  e.tag.opening.source ++ (e.front.chars ++ (e.bodyChars body ++ (e.behind.chars ++
    ((e.tag.closing e.space).source ++ e.epilog.chars))))

def rootLexemes : List Lexeme :=
  e.tag.opening :: (e.front.lexemes ++ (e.bodyLexemes body ++ (e.behind.lexemes ++
    (e.tag.closing e.space :: e.epilog.lexemes))))

/-- The text of the document with this body. -/
def chars : List Char :=
  e.prolog.chars ++ e.rootChars body

theorem lexed_body (rest : List Char) : Lexed (e.bodyChars body) rest (e.bodyLexemes body) := by
  cases body with
  | none => exact lexed_empty e.bodyTag.name.isName e.bodyTag.behindName_behindName rest
  | some m =>
    exact (lexed_opening e.bodyTag.name.isName e.bodyTag.behindName_behindName _).append
      ((m.lexed (endsText_markup _)).append (lexed_closing e.bodyTag.name.isName e.bodySpace.isSpace rest))

theorem balanced_body : Balanced (e.bodyLexemes body) := by
  cases body with
  | none => exact .leaf rfl .nil
  | some m => exact .element m.balanced .nil

theorem endsText_body (rest : List Char) : EndsText (e.bodyChars body ++ rest) := by
  cases body <;> exact endsText_markup _

theorem lexed_root : Lexed (e.rootChars body) [] (e.rootLexemes body) := by
  refine (lexed_opening e.tag.name.isName e.tag.behindName_behindName _).append (Lexed.append (e.front.lexed ?_) ?_)
  · rw [List.append_assoc]
    exact e.endsText_body body _
  · refine (e.lexed_body body _).append ((e.behind.lexed (endsText_markup _)).append ?_)
    exact (lexed_closing e.tag.name.isName e.space.isSpace _).append (e.epilog.lexed endsText_nil)

theorem balanced_root : Balanced (e.rootLexemes body) := by
  have hinner := e.front.balanced.append ((e.balanced_body body).append e.behind.balanced)
  have hroot : Balanced (e.tag.opening :: (_ ++ e.tag.closing e.space :: e.epilog.lexemes)) :=
    .element hinner e.epilog.balanced
  simpa only [rootLexemes, List.append_assoc] using hroot

/-- The document is lexed as what it is made of, but for a byte order mark in front of it. -/
theorem lexemes_chars : lexemes (e.chars body) = e.prolog.withoutMark.lexemes ++ e.rootLexemes body := by
  refine lexemes_eq ?_ (e.prolog.withoutMark.balanced.append (e.balanced_root body))
  have hends : EndsText (e.rootChars body) := endsText_markup _
  unfold chars
  rw [withoutMark_append _ hends, ← e.prolog.chars_withoutMark]
  refine (e.prolog.withoutMark.lexed ?_).append (e.lexed_root body)
  rwa [List.append_nil]

end Envelope

/-! ## Looking for the body -/

section

variable (inEnvelope : Bool) (ls : List Lexeme)

theorem findBody_run (run : TextRun) : findBody inEnvelope (run.lexemes ++ ls) = findBody inEnvelope ls := by
  unfold TextRun.lexemes
  split
  · rfl
  · exact findBody_leaf (.inr ⟨_, rfl⟩) inEnvelope ls

theorem findBody_piece (p : Piece) : findBody inEnvelope (p.lexeme :: ls) = findBody inEnvelope ls := by
  cases p <;> rfl

theorem findBody_closing (tag : ElementTag) (space : Space) :
    findBody inEnvelope (tag.closing space :: ls) = findBody inEnvelope ls :=
  rfl

theorem findBody_opening (tag : ElementTag) : findBody inEnvelope (tag.opening :: ls) =
    if tag.name.base = "Envelope".toList then findBody true ls
    else if tag.name.base = "Body".toList ∧ inEnvelope then
      match innerSource? tag.name.chars 0 ls with
      | some inner => .ok inner
      | none => .error .malformed
    else findBody inEnvelope ls := by
  rw [← tag.name.localName_chars]
  rfl

theorem findBody_empty (tag : ElementTag) : findBody inEnvelope (tag.empty :: ls) =
    if tag.name.base = "Envelope".toList then .error .missingBody
    else if tag.name.base = "Body".toList ∧ inEnvelope then .ok []
    else findBody inEnvelope ls := by
  rw [← tag.name.localName_chars]
  rfl

theorem findBody_characterData {m : Content} (h : m.IsCharacterData) :
    findBody inEnvelope (m.lexemes ++ ls) = findBody inEnvelope ls := by
  induction m with
  | text run => exact findBody_run inEnvelope ls run
  | piece run p rest ih =>
    simp only [Content.lexemes, List.append_assoc, List.cons_append, List.nil_append]
    rw [findBody_run, findBody_piece, ih h]
  | empty => cases h
  | element => cases h

theorem findBody_prolog (p : Prolog) : findBody inEnvelope (p.lexemes ++ ls) = findBody inEnvelope ls := by
  cases p with
  | untyped front h => exact findBody_characterData inEnvelope ls h
  | typed front doctype behind hf hb =>
    simp only [Prolog.lexemes, List.append_assoc, List.cons_append]
    rw [findBody_characterData _ _ hf, findBody_leaf (.inl rfl), findBody_characterData _ _ hb]

/-- The content of a body is given back as it is written. -/
theorem findBody_bodyContent {tag : ElementTag} (h : tag.name.base = "Body".toList) (m : Content) (space : Space) :
    findBody true (tag.opening :: (m.lexemes ++ tag.closing space :: ls)) = .ok m.chars := by
  refine findBody_body (tag.name.localName_chars.trans h) ?_
  -- elements of the same name in the content are closed in it, so the end is found behind it
  exact (m.balanced.innerSource?_closing _ _ ls).trans (congrArg some (m.lexed endsText_nil).sources)

end

/-! ## What is taken for the body -/

/-- What an element in front of the body makes of the search, if any does: one with the name of a body is taken
for it, and an empty envelope is taken for the whole one. -/
def taken? : Content → Option (Except Error (List Char))
  | .text _ => none
  | .piece _ _ rest => taken? rest
  | .empty _ tag rest =>
    if tag.name.base = "Envelope".toList then some (.error .missingBody)
    else if tag.name.base = "Body".toList then some (.ok [])
    else taken? rest
  | .element _ tag inner _ rest =>
    if tag.name.base = "Body".toList then some (.ok inner.chars) else (taken? inner).or (taken? rest)

/-- At some depth there is an element with the name of a body, or an empty one with the name of an envelope. -/
def hasLookAlike : Content → Bool
  | .text _ => false
  | .piece _ _ rest => hasLookAlike rest
  | .empty _ tag rest =>
    tag.name.base == "Envelope".toList || tag.name.base == "Body".toList || hasLookAlike rest
  | .element _ tag inner _ rest => tag.name.base == "Body".toList || hasLookAlike inner || hasLookAlike rest

theorem taken?_eq_none_iff (m : Content) : taken? m = none ↔ hasLookAlike m = false := by
  induction m with
  | text run => simp [taken?, hasLookAlike]
  | piece run p rest ih => simpa [taken?, hasLookAlike] using ih
  | empty run tag rest ih =>
    simp only [taken?, hasLookAlike, Bool.or_eq_false_iff, beq_eq_false_iff_ne]
    split
    · simp only [reduceCtorEq, ne_eq, not_true, false_and, *]
    · split <;> simp only [reduceCtorEq, ne_eq, not_true, not_false_eq_true, false_and, and_false, true_and, *]
  | element run tag inner space rest ihi ih =>
    simp only [taken?, hasLookAlike, Bool.or_eq_false_iff, beq_eq_false_iff_ne]
    split <;>
      simp only [reduceCtorEq, ne_eq, not_true, not_false_eq_true, false_and, true_and, Option.or_eq_none_iff, *]

/-- Inside an envelope the first element that looks like a body decides. -/
theorem findBody_content (m : Content) (ls : List Lexeme) :
    findBody true (m.lexemes ++ ls) = (taken? m).getD (findBody true ls) := by
  induction m generalizing ls with
  | text run => exact findBody_run true ls run
  | piece run p rest ih =>
    simp only [Content.lexemes, List.append_assoc, List.cons_append, List.nil_append]
    rw [findBody_run, findBody_piece, ih, taken?]
  | empty run tag rest ih =>
    simp only [Content.lexemes, List.append_assoc, List.cons_append, List.nil_append]
    rw [findBody_run, findBody_empty, ih, taken?]
    split
    · rfl
    · simp only [and_true]
      split <;> rfl
  | element run tag inner space rest ihi ih =>
    simp only [Content.lexemes, List.append_assoc, List.cons_append, List.nil_append]
    rw [findBody_run, taken?]
    by_cases hb : tag.name.base = "Body".toList
    · rw [if_pos hb, findBody_bodyContent _ hb]
      rfl
    · have hpass : ∀ xs, findBody true (tag.opening :: xs) = findBody true xs := fun xs => by
        rw [findBody_opening, if_neg (not_and_of_not_left _ hb), ite_self]
      rw [if_neg hb, hpass, ihi, findBody_closing, ih]
      cases taken? inner <;> rfl

theorem findBody_envelopeBody (e : Envelope) (body : Option Content) (ls : List Lexeme) :
    findBody true (e.bodyLexemes body ++ ls) = .ok (markup body) := by
  cases body with
  | none =>
    have hne : e.bodyTag.name.base ≠ "Envelope".toList := by
      rw [e.isBody]
      decide
    exact (findBody_empty true ls e.bodyTag).trans (by rw [if_neg hne, if_pos ⟨e.isBody, rfl⟩]; rfl)
  | some m =>
    simp only [Envelope.bodyLexemes, List.cons_append, List.append_assoc, List.nil_append]
    exact findBody_bodyContent ls e.isBody m e.bodySpace

theorem body_chars (e : Envelope) (body : Option Content) :
    Soap.body (Utf8.encodeChars (e.chars body)) = (taken? e.front).getD (.ok (markup body)) := by
  unfold Soap.body
  rw [Utf8.decodeChars_encodeChars]
  simp only [bodyOfChars]
  rw [e.lexemes_chars, findBody_prolog, Envelope.rootLexemes, findBody_opening, if_pos e.isEnvelope, findBody_content,
    findBody_envelopeBody]

/-- The body of an envelope is given back character for character, unless an element in front of it is taken for
it; that every body is, means that no such element is there. -/
theorem body_verbatim (e : Envelope) :
    (∀ body, Soap.body (Utf8.encodeChars (e.chars body)) = (taken? e.front).getD (.ok (markup body))) ∧
    ((∀ body, Soap.body (Utf8.encodeChars (e.chars body)) = .ok (markup body)) ↔ hasLookAlike e.front = false) := by
  refine ⟨body_chars e, ?_⟩
  simp only [body_chars, ← taken?_eq_none_iff]
  constructor
  · intro h
    cases ht : taken? e.front with
    | none => rfl
    | some r =>
      -- what is taken for the body does not depend on the body, so two bodies cannot both be given back
      simp only [ht, Option.getD_some] at h
      have hsame : Except.ok (markup none) = Except.ok (markup (some (.text ⟨['0'], by simp⟩))) :=
        (h none).symm.trans (h _)
      cases hsame
  · intro h body
    rw [h, Option.getD_none]

/-! ## A header with an element of the body's name -/

theorem isText_nil : ∀ c ∈ ([] : List Char), c ≠ '<' ∧ c ≠ '&' :=
  List.forall_mem_nil _

theorem nodup_names_nil : (([] : List TagAttribute).map TagAttribute.name).Nodup :=
  List.nodup_nil

def noText : TextRun :=
  ⟨[], isText_nil⟩

def blank : Content :=
  .text noText

def soapTag (base : String) (hn : isName (qualified (some "env".toList) base.toList) = true) : ElementTag :=
  plainTag (some "env".toList) base hn (by simp) [] nodup_names_nil

/-- An envelope with nothing but its body behind what stands in front. -/
def envelopeBehind (front : Content) : Envelope where
  prolog := .untyped blank rfl
  tag := plainTag (some "env".toList) "Envelope" (by decide) (by simp) [namespaceAttribute "xmlns:env" (by decide)]
    (by simp)
  front := front
  bodyTag := soapTag "Body" (by decide)
  bodySpace := noSpace
  behind := blank
  space := noSpace
  epilog := blank
  isEnvelope := rfl
  isBody := rfl

/-- A header with an element that is no body of the envelope, though its name without the prefix is that of one. -/
def traceHeader : Content :=
  .element noText (soapTag "Header" (by decide))
    (.element noText
      (plainTag (some ['t']) "Body" (by decide) (by simp) [namespaceAttribute "xmlns:t" (by decide)] (by simp))
      (.text (runOf "trace" rfl)) noSpace blank)
    noSpace blank

def stopCall : Content :=
  .empty noText (plainTag none "Stop" (by decide) (by simp) [] nodup_names_nil) blank

/-- The call in the body is not found: what stands in the header is taken for the body. -/
theorem header_taken_for_body :
    (envelopeBehind traceHeader).chars (some stopCall) =
      ("<env:Envelope xmlns:env='a&amp;'><env:Header><t:Body xmlns:t='a&amp;'>trace</t:Body></env:Header>" ++
        "<env:Body><Stop/></env:Body></env:Envelope>").toList ∧
    markup (some stopCall) = "<Stop/>".toList ∧
    Soap.body (Utf8.encodeChars ((envelopeBehind traceHeader).chars (some stopCall))) = .ok "trace".toList :=
  ⟨by decide +kernel, by decide +kernel, body_chars (envelopeBehind traceHeader) (some stopCall)⟩

end Upnp.Soap
