import Mathlib.Data.List.Basic
import Upnp.Proofs.Soap.Extraction
import Upnp.Proofs.Soap.Fault

/-
Faults as their writers spell them. A character of the code or the description may be written by itself, in a
raw passage or by reference, with comments and instructions in between. The description is read alike from all
spellings, but references in the code are passed over: two spellings of a fault are read alike if and only if
what is left of their codes is the same number, or the same text that is none.
-/

namespace Upnp.Markup

def Piece.rawText : Piece → List Char
  | .reference _ => []
  | p => p.text

/-- What is left of the text outside the elements when its references are passed over. -/
def Content.rawText : Content → List Char
  | .text run => run.chars
  | .piece run p rest => run.chars ++ (p.rawText ++ rest.rawText)
  | .empty run _ rest => run.chars ++ rest.rawText
  | .element run _ _ _ rest => run.chars ++ rest.rawText

end Upnp.Markup

namespace Upnp.Soap

open Upnp.Text Upnp.Markup Upnp.Xml Upnp.Decimal

/-! ## What the content of a body tells about a fault -/

/-- The elements of this name have a text that counts. -/
def IsField (name : List Char) : Prop :=
  name = "errorCode".toList ∨ name = "errorDescription".toList

instance (name : List Char) : Decidable (IsField name) :=
  inferInstanceAs (Decidable (_ ∨ _))

/-- The contents of the elements of a name, at every depth but in one another. -/
def fieldsOf (name : List Char) : Content → List Content
  | .text _ => []
  | .piece _ _ rest => fieldsOf name rest
  | .empty _ _ rest => fieldsOf name rest
  | .element _ tag inner _ rest =>
    (if tag.name.base = name then [inner] else fieldsOf name inner) ++ fieldsOf name rest

/-- An element is a fault, at whatever depth. -/
def hasFault : Content → Bool
  | .text _ => false
  | .piece _ _ rest => hasFault rest
  | .empty _ tag rest => tag.name.base == "Fault".toList || hasFault rest
  | .element _ tag inner _ rest => tag.name.base == "Fault".toList || (hasFault inner || hasFault rest)

/-- Codes and descriptions have no elements in them. -/
def HasPlainFields : Content → Prop
  | .text _ => True
  | .piece _ _ rest => HasPlainFields rest
  | .empty _ _ rest => HasPlainFields rest
  | .element _ tag inner _ rest =>
    (if IsField tag.name.base then inner.IsCharacterData else HasPlainFields inner) ∧ HasPlainFields rest

/-- What is read of the code: references in it are passed over. -/
def codeText (m : Content) : List Char :=
  (fieldsOf "errorCode".toList m).flatMap Content.rawText

def descriptionText (m : Content) : List Char :=
  (fieldsOf "errorDescription".toList m).flatMap Content.ownText

def codeOf (m : Content) : Except Error Nat :=
  match readIntChars .unsigned32 (trimChars (codeText m)) with
  | .ok n => .ok n.toNat
  | .error _ => .error (.invalidErrorCode (text (trimChars (codeText m))))

/-- The fault that the content of a body reports. -/
def faultOf (m : Content) : Except Error Fault :=
  if hasFault m then (codeOf m).map fun code => ⟨code, text (descriptionText m)⟩ else .error .notAFault

theorem result_eq_faultOf (m : Content) :
    FaultState.result ⟨hasFault m, none, codeText m, descriptionText m⟩ = faultOf m := by
  unfold FaultState.result faultOf codeOf
  cases hasFault m with
  | false => rfl
  | true =>
    simp only [Bool.not_true, Bool.false_eq_true, if_false, if_true]
    cases readIntChars .unsigned32 (trimChars (codeText m)) <;> rfl

theorem description_of_faultOf {m : Content} {f : Fault} (h : faultOf m = .ok f) :
    f.description = text (descriptionText m) := by
  unfold faultOf at h
  split at h
  · cases hc : codeOf m with
    | error e =>
      rw [hc] at h
      cases h
    | ok code =>
      rw [hc] at h
      cases h
      rfl
  · cases h

section

variable (run : TextRun) (tag : ElementTag) (inner : Content) (space : Space) (rest : Content)

theorem flatMap_fieldsOf_element (f : Content → List Char) (name : List Char) :
    (fieldsOf name (.element run tag inner space rest)).flatMap f =
      (if tag.name.base = name then f inner else (fieldsOf name inner).flatMap f) ++ (fieldsOf name rest).flatMap f := by
  rw [fieldsOf, List.flatMap_append]
  split
  · rw [List.flatMap_singleton]
  · rfl

theorem codeText_element : codeText (.element run tag inner space rest) =
    (if tag.name.base = "errorCode".toList then inner.rawText else codeText inner) ++ codeText rest :=
  flatMap_fieldsOf_element run tag inner space rest Content.rawText _

theorem descriptionText_element : descriptionText (.element run tag inner space rest) =
    (if tag.name.base = "errorDescription".toList then inner.ownText else descriptionText inner) ++
      descriptionText rest :=
  flatMap_fieldsOf_element run tag inner space rest Content.ownText _

end

section

variable {m : Content} (h : m.IsCharacterData)

include h

theorem fieldsOf_characterData (name : List Char) : fieldsOf name m = [] := by
  induction m with
  | text run => rfl
  | piece run p rest ih => exact ih h
  | empty => cases h
  | element => cases h

theorem hasFault_characterData : hasFault m = false := by
  induction m with
  | text run => rfl
  | piece run p rest ih => exact ih h
  | empty => cases h
  | element => cases h

theorem codeText_characterData : codeText m = [] := by
  rw [codeText, fieldsOf_characterData h, List.flatMap_nil]

theorem descriptionText_characterData : descriptionText m = [] := by
  rw [descriptionText, fieldsOf_characterData h, List.flatMap_nil]

end

section

variable (m : Content)

theorem fieldsOf_withoutMark (name : List Char) : fieldsOf name m.withoutMark = fieldsOf name m := by
  cases m <;> rfl

theorem hasFault_withoutMark : hasFault m.withoutMark = hasFault m := by
  cases m <;> rfl

theorem hasPlainFields_withoutMark : HasPlainFields m.withoutMark ↔ HasPlainFields m := by
  cases m <;> rfl

theorem faultOf_withoutMark : faultOf m.withoutMark = faultOf m := by
  unfold faultOf codeOf codeText descriptionText
  rw [hasFault_withoutMark, fieldsOf_withoutMark, fieldsOf_withoutMark]

end

/-! ## Reading the content of a body -/

theorem readFaultFrom_run (s : FaultState) (run : TextRun) (more : List Token) :
    readFaultFrom s (runTokens run ++ more) = readFaultFrom (s.addText run.chars) more := by
  unfold runTokens TextRun.lexemes
  split
  · rename_i h
    rw [h, s.addText_nil]
    rfl
  · rfl

/-- In which of the elements whose text does not count the reader stands makes no difference. -/
theorem readFaultFrom_field {inFault : Bool} {field field' : Option (List Char)} {code description : List Char}
    (hs : FaultState.Quiet ⟨inFault, field, code, description⟩)
    (hs' : FaultState.Quiet ⟨inFault, field', code, description⟩) (ts : List Token) :
    readFaultFrom ⟨inFault, field, code, description⟩ ts = readFaultFrom ⟨inFault, field', code, description⟩ ts := by
  induction ts generalizing inFault with
  | nil => rfl
  | cons t ts ih =>
    have htext : ∀ cs, readFaultFrom ⟨inFault, field, code, description⟩ (.text cs :: ts) =
        readFaultFrom ⟨inFault, field', code, description⟩ (.text cs :: ts) := fun cs => by
      rw [readFaultFrom_text hs, readFaultFrom_text hs', ih hs hs']
    cases t with
    | malformed => rfl
    | opening name attributes => rfl
    | empty name attributes => exact ih hs hs'
    | closing name => rfl
    | text cs => exact htext cs
    | cdata cs => exact htext cs
    | reference name => rw [readFaultFrom, if_neg hs.2, readFaultFrom, if_neg hs'.2, ih hs hs']
    | aside => exact ih hs hs'

section

variable (inFault : Bool) (code description : List Char) (more : List Token)

theorem readFaultFrom_codePiece (p : Piece) :
    readFaultFrom ⟨inFault, some "errorCode".toList, code, description⟩ (p.token :: more) =
      readFaultFrom ⟨inFault, some "errorCode".toList, code ++ p.rawText, description⟩ more := by
  have hne : some "errorCode".toList ≠ some "errorDescription".toList := by decide
  cases p with
  | reference r =>
    show readFaultFrom _ (.reference r.name :: more) = _
    rw [readFaultFrom, if_neg hne]
    show _ = readFaultFrom ⟨inFault, _, code ++ [], description⟩ more
    rw [List.append_nil]
  | cdata content h =>
    show readFaultFrom _ (.cdata content :: more) = _
    rw [readFaultFrom, FaultState.addText_errorCode]
    rfl
  | comment content h | instruction content h =>
    show _ = readFaultFrom ⟨inFault, _, code ++ [], description⟩ more
    rw [List.append_nil]
    rfl

theorem readFaultFrom_descriptionPiece (p : Piece) :
    readFaultFrom ⟨inFault, some "errorDescription".toList, code, description⟩ (p.token :: more) =
      readFaultFrom ⟨inFault, some "errorDescription".toList, code, description ++ p.text⟩ more := by
  cases p with
  | reference r =>
    show readFaultFrom _ (.reference r.name :: more) = _
    rw [readFaultFrom, if_pos rfl, resolve_of_referenced? r.names.referenced?]
    unfold FaultState.addDescription
    simp only [if_true]
    rfl
  | cdata content h =>
    show readFaultFrom _ (.cdata content :: more) = _
    rw [readFaultFrom, FaultState.addText_errorDescription]
    rfl
  | comment content h | instruction content h =>
    show _ = readFaultFrom ⟨inFault, _, code, description ++ []⟩ more
    rw [List.append_nil]
    rfl

/-- References in a code are passed over. -/
theorem readFaultFrom_codeContent {m : Content} (h : m.IsCharacterData) :
    readFaultFrom ⟨inFault, some "errorCode".toList, code, description⟩ (contentTokens m ++ more) =
      readFaultFrom ⟨inFault, some "errorCode".toList, code ++ m.rawText, description⟩ more := by
  induction m generalizing code with
  | text run => exact (readFaultFrom_run _ run more).trans (by rw [FaultState.addText_errorCode]; rfl)
  | piece run p rest ih =>
    rw [contentTokens_piece, readFaultFrom_run, FaultState.addText_errorCode, readFaultFrom_codePiece, ih _ h]
    simp only [Content.rawText, List.append_assoc]
  | empty => cases h
  | element => cases h

theorem readFaultFrom_descriptionContent {m : Content} (h : m.IsCharacterData) :
    readFaultFrom ⟨inFault, some "errorDescription".toList, code, description⟩ (contentTokens m ++ more) =
      readFaultFrom ⟨inFault, some "errorDescription".toList, code, description ++ m.ownText⟩ more := by
  induction m generalizing description with
  | text run => exact (readFaultFrom_run _ run more).trans (by rw [FaultState.addText_errorDescription]; rfl)
  | piece run p rest ih =>
    rw [contentTokens_piece, readFaultFrom_run, FaultState.addText_errorDescription, readFaultFrom_descriptionPiece,
      ih _ h]
    simp only [Content.ownText, List.append_assoc]
  | empty => cases h
  | element => cases h

/-- The text of a code or a description is added to what is there. -/
theorem readFaultFrom_fieldContent {name : List Char} (hn : IsField name) {m : Content} (h : m.IsCharacterData) :
    readFaultFrom ⟨inFault, some name, code, description⟩ (contentTokens m ++ more) =
      readFaultFrom ⟨inFault, some name, code ++ (if name = "errorCode".toList then m.rawText else []),
        description ++ (if name = "errorDescription".toList then m.ownText else [])⟩ more := by
  rcases hn with rfl | rfl
  · rw [if_pos rfl, if_neg (by decide), List.append_nil]
    exact readFaultFrom_codeContent inFault code description more h
  · rw [if_neg (by decide), if_pos rfl, List.append_nil]
    exact readFaultFrom_descriptionContent inFault code description more h

end

theorem readFaultFrom_quietPiece {s : FaultState} (hs : s.Quiet) (p : Piece) (more : List Token) :
    readFaultFrom s (p.token :: more) = readFaultFrom s more := by
  cases p with
  | reference r =>
    show readFaultFrom s (.reference r.name :: more) = _
    rw [readFaultFrom, if_neg hs.2]
  | cdata content h =>
    show readFaultFrom s (.cdata content :: more) = _
    rw [readFaultFrom, FaultState.addText_quiet _ hs]
  | comment content h | instruction content h => rfl

theorem readFaultFrom_openingTag (inFault : Bool) (code description : List Char) (tag : ElementTag)
    (more : List Token) :
    readFaultFrom ⟨inFault, none, code, description⟩ (.opening tag.name.chars tag.behindName :: more) =
      readFaultFrom ⟨inFault || tag.name.base == "Fault".toList, some tag.name.base, code, description⟩ more := by
  rw [readFaultFrom_opening, tag.name.localName_chars]
  rfl

theorem readFaultFrom_emptyTag (inFault : Bool) (code description : List Char) (tag : ElementTag)
    (more : List Token) :
    readFaultFrom ⟨inFault, none, code, description⟩ (.empty tag.name.chars tag.behindName :: more) =
      readFaultFrom ⟨inFault || tag.name.base == "Fault".toList, none, code, description⟩ more := by
  show readFaultFrom (FaultState.enter _ (localName tag.name.chars)) more = _
  rw [tag.name.localName_chars]
  rfl

/-- Content is read as the fault in it, the texts of its codes, and those of its descriptions. -/
theorem readFaultFrom_content {m : Content} (h : HasPlainFields m) (inFault : Bool) (code description : List Char)
    (more : List Token) :
    readFaultFrom ⟨inFault, none, code, description⟩ (contentTokens m ++ more) =
      readFaultFrom ⟨inFault || hasFault m, none, code ++ codeText m, description ++ descriptionText m⟩ more := by
  have hrun : ∀ (inFault : Bool) (code description : List Char) (run : TextRun) (ts : List Token),
      readFaultFrom ⟨inFault, none, code, description⟩ (runTokens run ++ ts) =
        readFaultFrom ⟨inFault, none, code, description⟩ ts := fun inFault code description run ts => by
    rw [readFaultFrom_run, FaultState.addText_quiet _ (FaultState.quiet_none inFault code description)]
  induction m generalizing inFault code description more with
  | text run =>
    refine (hrun _ _ _ run more).trans ?_
    simp only [hasFault, codeText, descriptionText, fieldsOf, List.flatMap_nil, List.append_nil, Bool.or_false]
  | piece run p rest ih =>
    rw [contentTokens_piece, hrun, readFaultFrom_quietPiece (FaultState.quiet_none _ _ _), ih h]
    rfl
  | empty run tag rest ih =>
    rw [contentTokens_empty, hrun, readFaultFrom_emptyTag, ih h, Bool.or_assoc]
    rfl
  | element run tag inner space rest ihi ih =>
    rw [contentTokens_element, hrun, readFaultFrom_openingTag]
    rw [hasFault, codeText_element, descriptionText_element]
    by_cases hf : IsField tag.name.base
    · have hinner : inner.IsCharacterData := by
        have hfront := h.1
        rwa [if_pos hf] at hfront
      have hfault : (tag.name.base == "Fault".toList) = false := by rcases hf with hb | hb <;> rw [hb] <;> decide
      rw [hasFault_characterData hinner, codeText_characterData hinner, descriptionText_characterData hinner, hfault,
        Bool.or_false, readFaultFrom_fieldContent _ _ _ _ hf hinner, readFaultFrom_closing, Bool.false_or, Bool.false_or,
        ← List.append_assoc, ← List.append_assoc]
      exact ih h.2 _ _ _ more
    · have hinner : HasPlainFields inner := by
        have hfront := h.1
        rwa [if_neg hf] at hfront
      have hcode : tag.name.base ≠ "errorCode".toList := fun hb => hf (.inl hb)
      have hdescription : tag.name.base ≠ "errorDescription".toList := fun hb => hf (.inr hb)
      have hquiet : FaultState.Quiet ⟨inFault || tag.name.base == "Fault".toList, some tag.name.base, code, description⟩ :=
        ⟨fun hb => hcode (Option.some.inj hb), fun hb => hdescription (Option.some.inj hb)⟩
      rw [if_neg hcode, if_neg hdescription, readFaultFrom_field hquiet (FaultState.quiet_none _ _ _), ihi hinner,
        readFaultFrom_closing]
      refine (ih h.2 _ _ _ more).trans ?_
      simp only [List.append_assoc, Bool.or_assoc]

/-! ## Messages -/

theorem readFaultFrom_chars {m : Content} (h : HasPlainFields m) : readFaultFrom {} (tokensOf m.chars) = faultOf m := by
  rw [← faultOf_withoutMark, ← result_eq_faultOf]
  show readFaultFrom {} ((lexemes m.chars).map Lexeme.token) = _
  rw [m.lexemes_chars]
  have hread := readFaultFrom_content ((hasPlainFields_withoutMark m).2 h) false [] [] []
  rwa [List.append_nil] at hread

/-- The fault in the body is read, unless an element in front of the body is taken for it. -/
theorem decodeFault_chars (e : Envelope) {m : Content} (h : HasPlainFields m) :
    decodeFault (Utf8.encodeChars (e.chars (some m))) =
      match taken? e.front with
      | some taken => taken >>= fun cs => readFaultFrom {} (tokensOf cs)
      | none => faultOf m := by
  unfold decodeFault
  rw [body_chars]
  cases taken? e.front with
  | some taken => rfl
  | none => exact readFaultFrom_chars h

/-! ## Spellings -/

/-- The same content but for the spelling of its codes and descriptions, which have no elements in them. One that
has no text may also be written as a single tag. -/
inductive Respelled : Content → Content → Prop
  | text (run : TextRun) : Respelled (.text run) (.text run)
  | piece (run : TextRun) (p : Piece) {rest rest' : Content} (h : Respelled rest rest') :
    Respelled (.piece run p rest) (.piece run p rest')
  | empty (run : TextRun) (tag : ElementTag) {rest rest' : Content} (h : Respelled rest rest') :
    Respelled (.empty run tag rest) (.empty run tag rest')
  | element (run : TextRun) {tag : ElementTag} (space : Space) {inner inner' rest rest' : Content}
    (hn : ¬ IsField tag.name.base) (hi : Respelled inner inner') (h : Respelled rest rest') :
    Respelled (.element run tag inner space rest) (.element run tag inner' space rest')
  | field (run : TextRun) {tag : ElementTag} (space : Space) {inner inner' rest rest' : Content}
    (hn : IsField tag.name.base) (hi : inner.IsCharacterData) (hi' : inner'.IsCharacterData)
    (ht : inner.ownText = inner'.ownText) (h : Respelled rest rest') :
    Respelled (.element run tag inner space rest) (.element run tag inner' space rest')
  | opened (run : TextRun) {tag : ElementTag} (space : Space) {inner rest rest' : Content}
    (hn : IsField tag.name.base) (hi : inner.IsCharacterData) (ht : inner.ownText = []) (h : Respelled rest rest') :
    Respelled (.empty run tag rest) (.element run tag inner space rest')
  | closed (run : TextRun) {tag : ElementTag} (space : Space) {inner rest rest' : Content}
    (hn : IsField tag.name.base) (hi : inner.IsCharacterData) (ht : inner.ownText = []) (h : Respelled rest rest') :
    Respelled (.element run tag inner space rest) (.empty run tag rest')

namespace Respelled

variable {m m' : Content}

theorem symm (h : Respelled m m') : Respelled m' m := by
  induction h with
  | text run => exact .text run
  | piece run p _ ih => exact .piece run p ih
  | empty run tag _ ih => exact .empty run tag ih
  | element run space hn _ _ ihi ih => exact .element run space hn ihi ih
  | field run space hn hi hi' ht _ ih => exact .field run space hn hi' hi ht.symm ih
  | opened run space hn hi ht _ ih => exact .closed run space hn hi ht ih
  | closed run space hn hi ht _ ih => exact .opened run space hn hi ht ih

theorem hasPlainFields (h : Respelled m m') : HasPlainFields m := by
  induction h with
  | text => trivial
  | piece _ _ _ ih | empty _ _ _ ih | opened _ _ _ _ _ _ ih => exact ih
  | element _ _ hn _ _ ihi ih => exact ⟨by rwa [if_neg hn], ih⟩
  | field _ _ hn hi _ _ _ ih | closed _ _ hn hi _ _ ih => exact ⟨by rwa [if_pos hn], ih⟩

theorem hasFault_eq (h : Respelled m m') : hasFault m = hasFault m' := by
  induction h with
  | text => rfl
  | piece _ _ _ ih => exact ih
  | empty _ tag _ ih => exact congrArg (tag.name.base == "Fault".toList || ·) ih
  | element _ _ _ _ _ ihi ih => rw [hasFault, hasFault, ihi, ih]
  | field _ _ _ hi hi' _ _ ih =>
    rw [hasFault, hasFault, hasFault_characterData hi, hasFault_characterData hi', ih]
  | opened _ _ _ hi _ _ ih | closed _ _ _ hi _ _ ih =>
    rw [hasFault, hasFault, hasFault_characterData hi, ih, Bool.false_or]

/-- With its references a code or a description is the same text in all spellings. -/
theorem flatMap_ownText (h : Respelled m m') {name : List Char} (hname : IsField name) :
    (fieldsOf name m).flatMap Content.ownText = (fieldsOf name m').flatMap Content.ownText := by
  induction h with
  | text => rfl
  | piece _ _ _ ih | empty _ _ _ ih => exact ih
  | element _ _ hn _ _ ihi ih =>
    have hne : ∀ {base : List Char}, ¬ IsField base → base ≠ name := fun hb he => hb (he ▸ hname)
    rw [flatMap_fieldsOf_element, flatMap_fieldsOf_element, if_neg (hne hn), if_neg (hne hn), ihi, ih]
  | field _ _ _ hi hi' ht _ ih =>
    rw [flatMap_fieldsOf_element, flatMap_fieldsOf_element, fieldsOf_characterData hi, fieldsOf_characterData hi', ht,
      ih]
  | opened _ _ _ hi ht _ ih | closed _ _ _ hi ht _ ih =>
    rw [flatMap_fieldsOf_element, fieldsOf_characterData hi, ht, List.flatMap_nil, ite_self, List.nil_append]
    exact ih

theorem descriptionText_eq (h : Respelled m m') : descriptionText m = descriptionText m' :=
  h.flatMap_ownText (.inr rfl)

theorem faultOf_eq_iff (h : Respelled m m') :
    faultOf m = faultOf m' ↔ (hasFault m = true → codeOf m = codeOf m') := by
  unfold faultOf
  rw [← h.hasFault_eq, ← h.descriptionText_eq]
  cases hasFault m with
  | false => simp
  | true => cases codeOf m <;> cases codeOf m' <;> simp [Except.map]

theorem description_eq (h : Respelled m m') {f f' : Fault} (hf : faultOf m = .ok f) (hf' : faultOf m' = .ok f') :
    f.description = f'.description := by
  rw [description_of_faultOf hf, description_of_faultOf hf', h.descriptionText_eq]

/-- Where no code is written with references, its text is the same in all spellings. -/
theorem codeOf_eq (h : Respelled m m')
    (hc : ∀ c ∈ fieldsOf "errorCode".toList m ++ fieldsOf "errorCode".toList m', c.rawText = c.ownText) :
    codeOf m = codeOf m' := by
  have hraw : ∀ {cs : List Content}, (∀ c ∈ cs, c.rawText = c.ownText) →
      cs.flatMap Content.rawText = cs.flatMap Content.ownText := fun hcs => List.flatMap_congr hcs
  have htext : codeText m = codeText m' := by
    unfold codeText
    rw [hraw fun c hm => hc c (List.mem_append_left _ hm), hraw fun c hm => hc c (List.mem_append_right _ hm)]
    exact h.flatMap_ownText (.inl rfl)
  unfold codeOf
  rw [htext]

end Respelled

/-- Two spellings of a fault are read alike if and only if the codes are the same without their references, which
they are where there are no references in them; the description is the same from all spellings. -/
theorem decodeFault_respelled (e : Envelope) {m m' : Content} (h : Respelled m m') :
    (decodeFault (Utf8.encodeChars (e.chars (some m))) = decodeFault (Utf8.encodeChars (e.chars (some m'))) ↔
      (hasLookAlike e.front = false → hasFault m = true → codeOf m = codeOf m')) ∧
    ((∀ c ∈ fieldsOf "errorCode".toList m ++ fieldsOf "errorCode".toList m', c.rawText = c.ownText) →
      decodeFault (Utf8.encodeChars (e.chars (some m))) = decodeFault (Utf8.encodeChars (e.chars (some m')))) ∧
    (∀ f f', decodeFault (Utf8.encodeChars (e.chars (some m))) = .ok f →
      decodeFault (Utf8.encodeChars (e.chars (some m'))) = .ok f' → f.description = f'.description) := by
  rw [decodeFault_chars e h.hasPlainFields, decodeFault_chars e h.symm.hasPlainFields, ← taken?_eq_none_iff]
  cases taken? e.front with
  | some taken =>
    -- what is taken for the body is the same in both
    refine ⟨iff_of_true rfl (fun hno => nomatch hno), fun _ => rfl, fun f f' hf hf' => ?_⟩
    rw [Except.ok.inj (hf.symm.trans hf')]
  | none =>
    refine ⟨h.faultOf_eq_iff.trans ⟨fun hc _ => hc, fun hc => hc rfl⟩, fun hc => h.faultOf_eq_iff.2 fun _ => h.codeOf_eq hc,
      fun f f' => h.description_eq⟩

/-! ## A fault in three spellings -/

def bareTag (base : String) (hn : isName base.toList = true) (hc : ':' ∉ base.toList) : ElementTag :=
  plainTag none base hn hc [] nodup_names_nil

def plainEnvelope : Envelope :=
  envelopeBehind blank

def faultContent (code description : Content) : Content :=
  .element noText (soapTag "Fault" (by decide))
    (.element noText (bareTag "UPnPError" (by decide) (by simp))
      (.element noText (bareTag "errorCode" (by decide) (by simp)) code noSpace
        (.element noText (bareTag "errorDescription" (by decide) (by simp)) description noSpace blank))
      noSpace blank)
    noSpace blank

theorem respelled_faultContent {code code' description description' : Content} (hc : code.IsCharacterData)
    (hc' : code'.IsCharacterData) (hd : description.IsCharacterData) (hd' : description'.IsCharacterData)
    (hct : code.ownText = code'.ownText) (hdt : description.ownText = description'.ownText) :
    Respelled (faultContent code description) (faultContent code' description') := by
  refine .element _ _ (by decide) (.element _ _ (by decide) ?_ (.text _)) (.text _)
  exact .field _ _ (.inl rfl) hc hc' hct (.field _ _ (.inr rfl) hd hd' hdt (.text _))

def less : Reference :=
  ⟨'<', "lt".toList, .predefined (by simp [predefinedNames])⟩

/-- The digit one by its number. -/
def digitOne : Reference :=
  ⟨'1', _, .decimal (by decide) (.more (.digit (show digitIn? 10 '4' = some 4 by decide))
    (show digitIn? 10 '9' = some 9 by decide))⟩

def writtenFault : Content :=
  faultContent (.text (runOf "718" rfl))
    (.piece (runOf "No " rfl) (.reference less) (.text (runOf "entry>" rfl)))

/-- The same fault with raw passages and a comment. -/
def rawFault : Content :=
  faultContent
    (.piece (runOf "7" rfl) (.comment "code".toList (by rw [← splitOnce?_eq_none]; decide))
      (.piece noText (.cdata "18".toList (by rw [← splitOnce?_eq_none]; decide)) blank))
    (.piece (runOf "No" rfl) (.cdata " <entry>".toList (by rw [← splitOnce?_eq_none]; decide)) blank)

/-- The same fault with a digit of its code by reference. -/
def referencedFault : Content :=
  faultContent (.piece (runOf "7" rfl) (.reference digitOne) (.text (runOf "8" rfl)))
    (.piece (runOf "No " rfl) (.reference less) (.text (runOf "entry>" rfl)))

theorem decodeFault_respelled_entry :
    Respelled writtenFault rawFault ∧
    (∀ c ∈ fieldsOf "errorCode".toList writtenFault ++ fieldsOf "errorCode".toList rawFault, c.rawText = c.ownText) ∧
    decodeFault (Utf8.encodeChars (plainEnvelope.chars (some writtenFault))) = .ok ⟨718, "No <entry>"⟩ ∧
    decodeFault (Utf8.encodeChars (plainEnvelope.chars (some rawFault))) = .ok ⟨718, "No <entry>"⟩ := by
  have h : Respelled writtenFault rawFault := respelled_faultContent rfl rfl rfl rfl rfl rfl
  have hraw : ∀ c ∈ fieldsOf "errorCode".toList writtenFault ++ fieldsOf "errorCode".toList rawFault,
      c.rawText = c.ownText := by
    decide +kernel
  have hread : decodeFault (Utf8.encodeChars (plainEnvelope.chars (some writtenFault))) = .ok ⟨718, "No <entry>"⟩ :=
    (decodeFault_chars plainEnvelope h.hasPlainFields).trans (by decide +kernel)
  exact ⟨h, hraw, hread, ((decodeFault_respelled plainEnvelope h).2.1 hraw).symm.trans hread⟩

/-- A digit by reference is lost, and the fault is read with another code. -/
theorem code_reference_lost :
    plainEnvelope.chars (some referencedFault) =
      ("<env:Envelope xmlns:env='a&amp;'><env:Body><env:Fault><UPnPError><errorCode>7&#49;8</errorCode>" ++
        "<errorDescription>No &lt;entry></errorDescription></UPnPError></env:Fault></env:Body></env:Envelope>").toList ∧
    Respelled writtenFault referencedFault ∧
    decodeFault (Utf8.encodeChars (plainEnvelope.chars (some writtenFault))) = .ok ⟨718, "No <entry>"⟩ ∧
    decodeFault (Utf8.encodeChars (plainEnvelope.chars (some referencedFault))) = .ok ⟨78, "No <entry>"⟩ := by
  have h : Respelled writtenFault referencedFault := respelled_faultContent rfl rfl rfl rfl rfl rfl
  exact ⟨by decide +kernel, h, (decodeFault_chars plainEnvelope h.hasPlainFields).trans (by decide +kernel),
    (decodeFault_chars plainEnvelope h.symm.hasPlainFields).trans (by decide +kernel)⟩

end Upnp.Soap
