import Upnp.Proofs.Markup.Content
import Upnp.Proofs.Soap.Call

/-
The body of an envelope as the caller reads it. The first element of the body is the action and its
children are the arguments, each with the text that stands directly in it; the reader's depth
counter and its one argument under way come to the same for content of every shape.
-/

namespace Upnp.Soap

open Upnp.Text Upnp.Markup Upnp.Xml

/-! ## What a body calls -/

/-- The elements by their local names with the texts that stand directly in them. -/
def argumentsOf (m : Content) : List (String × String) :=
  m.elements.map fun e => (text e.1.name.base, text e.2.ownText)

/-- The call that the first element makes. -/
def callOf (m : Content) : Except Error Call :=
  match m.elements with
  | [] => .error .noAction
  | e :: _ => .ok ⟨text e.1.name.base, e.1.namespace?.map text, argumentsOf e.2⟩

theorem argumentsOf_alike {m m' : Content} (h : m.Alike m') : argumentsOf m = argumentsOf m' := by
  induction h with
  | text run => rfl
  | piece run p _ ih => exact ih
  | @empty run tag tag' rest rest' hb _ ih =>
    show (text tag.name.base, _) :: argumentsOf rest = (text tag'.name.base, _) :: argumentsOf rest'
    rw [hb, ih]
  | @element run tag tag' inner inner' rest rest' space space' hb hi _ _ ih =>
    show (text tag.name.base, text inner.ownText) :: argumentsOf rest =
      (text tag'.name.base, text inner'.ownText) :: argumentsOf rest'
    rw [hb, hi.ownText, ih]

/-- Prefixes do not count. -/
theorem callOf_alike {m m' : Content} (h : m.Alike m') :
    (callOf m).map (fun c => (c.name, c.arguments)) = (callOf m').map (fun c => (c.name, c.arguments)) := by
  induction h with
  | text run => rfl
  | piece run p _ ih => exact ih
  | @empty run tag tag' rest rest' hb _ _ =>
    show Except.ok (text tag.name.base, []) = Except.ok (text tag'.name.base, [])
    rw [hb]
  | @element run tag tag' inner inner' rest rest' space space' hb hi _ _ _ =>
    show Except.ok (text tag.name.base, argumentsOf inner) = Except.ok (text tag'.name.base, argumentsOf inner')
    rw [hb, argumentsOf_alike hi]

/-! ## Adding text -/

namespace CallState

variable (s : CallState)

theorem addText_depth (cs : List Char) : (s.addText cs).depth = s.depth := by
  unfold addText
  split <;> rfl

theorem addText_of_ne {s : CallState} (h : s.depth ≠ 2) (cs : List Char) : s.addText cs = s :=
  if_neg h

theorem addText_nil : s.addText [] = s := by
  obtain ⟨depth, call, argument⟩ := s
  cases argument <;> simp [addText]

theorem addText_addText (cs ds : List Char) : (s.addText cs).addText ds = s.addText (cs ++ ds) := by
  by_cases h : s.depth = 2
  · simp [addText, h, Function.comp_def]
  · rw [addText_of_ne h, addText_of_ne h, addText_of_ne h]

end CallState

/-! ## Reading content -/

/-- The tokens of content. -/
def contentTokens (m : Content) : List Token :=
  m.lexemes.map Lexeme.token

def runTokens (run : TextRun) : List Token :=
  run.lexemes.map Lexeme.token

section Tokens

variable (run : TextRun) (rest : Content) (more : List Token)

theorem contentTokens_piece (p : Piece) : contentTokens (.piece run p rest) ++ more =
    runTokens run ++ (p.token :: (contentTokens rest ++ more)) := by
  simp [contentTokens, runTokens, Content.lexemes, Piece.lexeme]

theorem contentTokens_empty (tag : ElementTag) : contentTokens (.empty run tag rest) ++ more =
    runTokens run ++ (.empty tag.name.chars tag.behindName :: (contentTokens rest ++ more)) := by
  simp [contentTokens, runTokens, Content.lexemes, ElementTag.empty]

theorem contentTokens_element (tag : ElementTag) (inner : Content) (space : Space) :
    contentTokens (.element run tag inner space rest) ++ more =
      runTokens run ++ (.opening tag.name.chars tag.behindName ::
        (contentTokens inner ++ (.closing tag.name.chars :: (contentTokens rest ++ more)))) := by
  simp [contentTokens, runTokens, Content.lexemes, ElementTag.opening, ElementTag.closing]

end Tokens

theorem readCallFrom_run (s : CallState) (run : TextRun) (more : List Token) :
    readCallFrom s (runTokens run ++ more) = readCallFrom (s.addText run.chars) more := by
  unfold runTokens TextRun.lexemes
  split
  · rename_i h
    rw [h, s.addText_nil]
    rfl
  · show readCallFrom s (.text run.chars :: more) = _
    rw [readCallFrom]

theorem readCallFrom_piece (s : CallState) (p : Piece) (more : List Token) :
    readCallFrom s (p.token :: more) = readCallFrom (s.addText p.text) more := by
  cases p with
  | reference r =>
    show readCallFrom s (.reference r.name :: more) = readCallFrom (s.addText [r.char]) more
    rw [readCallFrom, resolve_of_referenced? r.names.referenced?]
    split
    · rfl
    · rename_i h
      rw [CallState.addText_of_ne h]
  | cdata content h =>
    show readCallFrom s (.cdata content :: more) = _
    rw [readCallFrom]
    rfl
  | comment content h =>
    show readCallFrom s (.aside :: more) = readCallFrom (s.addText []) more
    rw [readCallFrom, s.addText_nil]
  | instruction content h =>
    show readCallFrom s (.aside :: more) = readCallFrom (s.addText []) more
    rw [readCallFrom, s.addText_nil]

section Inside

variable {s : CallState} (name attributes : List Char) (more : List Token)

theorem readCallFrom_opening_inside (h : 2 ≤ s.depth) :
    readCallFrom s (.opening name attributes :: more) = readCallFrom { s with depth := s.depth + 1 } more := by
  rw [readCallFrom]
  split
  · omega
  · omega
  · rfl

theorem readCallFrom_opening_action (call : Option Call) :
    readCallFrom ⟨1, call, none⟩ (.opening name attributes :: more) =
      readCallFrom ⟨2, call, some ⟨localName name, []⟩⟩ more := by
  rw [readCallFrom]
  rfl

theorem readCallFrom_empty_inside (h : 2 ≤ s.depth) :
    readCallFrom s (.empty name attributes :: more) = readCallFrom s more := by
  rw [readCallFrom]
  split
  · omega
  · omega
  · rfl

theorem readCallFrom_closing_inside (h : 2 ≤ s.depth) :
    readCallFrom { s with depth := s.depth + 1 } (.closing name :: more) = readCallFrom s more := by
  have hclose : CallState.close { s with depth := s.depth + 1 } = s := by
    unfold CallState.close
    rw [if_neg (show s.depth + 1 ≠ 2 by omega)]
    rfl
  rw [readCallFrom, if_neg (show ¬ s.depth + 1 ≤ 1 by omega), hclose]

end Inside

/-- In an argument content adds its own text, and below that it adds nothing. -/
theorem readCallFrom_content (m : Content) {s : CallState} (hs : 2 ≤ s.depth) (more : List Token) :
    readCallFrom s (contentTokens m ++ more) = readCallFrom (s.addText m.ownText) more := by
  induction m generalizing s more with
  | text run => exact readCallFrom_run s run more
  | piece run p rest ih =>
    have hdepth : 2 ≤ ((s.addText run.chars).addText p.text).depth := by
      rwa [CallState.addText_depth, CallState.addText_depth]
    rw [contentTokens_piece, readCallFrom_run, readCallFrom_piece, ih hdepth, CallState.addText_addText,
      CallState.addText_addText]
    rfl
  | empty run tag rest ih =>
    have hdepth : 2 ≤ (s.addText run.chars).depth := by rwa [s.addText_depth]
    rw [contentTokens_empty, readCallFrom_run, readCallFrom_empty_inside _ _ _ hdepth, ih hdepth,
      CallState.addText_addText]
    rfl
  | element run tag inner space rest ihi ih =>
    have hdepth : 2 ≤ (s.addText run.chars).depth := by rwa [s.addText_depth]
    have hinner : (s.addText run.chars).depth + 1 ≠ 2 := by omega
    rw [contentTokens_element, readCallFrom_run, readCallFrom_opening_inside _ _ _ hdepth,
      ihi (Nat.le_succ_of_le hdepth), CallState.addText_of_ne hinner, readCallFrom_closing_inside _ _ hdepth,
      ih hdepth, CallState.addText_addText]
    rfl

/-- Directly in the action every element is an argument. -/
theorem readCallFrom_actionContent (m : Content) (c : Call) (more : List Token) :
    readCallFrom ⟨1, some c, none⟩ (contentTokens m ++ more) =
      readCallFrom ⟨1, some { c with arguments := c.arguments ++ argumentsOf m }, none⟩ more := by
  have hrun : ∀ (c : Call) (run : TextRun) (ts : List Token),
      readCallFrom ⟨1, some c, none⟩ (runTokens run ++ ts) = readCallFrom ⟨1, some c, none⟩ ts := fun c run ts => by
    rw [readCallFrom_run, CallState.addText_of_ne (show 1 ≠ 2 by decide)]
  induction m generalizing c with
  | text run =>
    rw [show argumentsOf (.text run) = [] from rfl, List.append_nil]
    exact hrun c run more
  | piece run p rest ih =>
    rw [contentTokens_piece, hrun, readCallFrom_piece, CallState.addText_of_ne (show 1 ≠ 2 by decide), ih]
    rfl
  | empty run tag rest ih =>
    rw [contentTokens_empty, hrun, readCallFrom_emptyArgument, ih, tag.name.localName_chars]
    simp [Call.addArgument, argumentsOf, Content.elements, Content.ownText, text]
  | element run tag inner space rest _ ih =>
    rw [contentTokens_element, hrun, readCallFrom_opening_action, readCallFrom_content inner (Nat.le_refl 2)]
    show readCallFrom ⟨2, some c, some ⟨localName tag.name.chars, [] ++ inner.ownText⟩⟩ _ = _
    rw [readCallFrom_endArgument, ih, tag.name.localName_chars]
    simp [Call.addArgument, argumentsOf, Content.elements]

theorem callOfTag_tag (tag : ElementTag) : callOfTag tag.name.chars tag.behindName =
    .ok ⟨text tag.name.base, tag.namespace?.map text, []⟩ := by
  unfold callOfTag
  rw [tag.namespaceOf_behindName, tag.name.localName_chars]
  rfl

/-- The content of a body is read as the call that it makes. -/
theorem readCallFrom_bodyContent (m : Content) : readCallFrom {} (contentTokens m) = callOf m := by
  have hrun : ∀ (run : TextRun) (ts : List Token), readCallFrom {} (runTokens run ++ ts) = readCallFrom {} ts :=
    fun run ts => by rw [readCallFrom_run, CallState.addText_of_ne (by decide)]
  rw [← List.append_nil (contentTokens m)]
  induction m with
  | text run => exact hrun run []
  | piece run p rest ih =>
    rw [contentTokens_piece, hrun, readCallFrom_piece, CallState.addText_of_ne (by decide), ih]
    rfl
  | empty run tag rest _ =>
    rw [contentTokens_empty, hrun, readCallFrom]
    exact callOfTag_tag tag
  | element run tag inner space rest _ _ =>
    rw [contentTokens_element, hrun, readCallFrom]
    simp only [callOfTag_tag]
    rw [readCallFrom_actionContent, readCallFrom]
    rfl

/-! ## Messages -/

/-- A message with content in its body. -/
def enclosed (m : Content) : List Char :=
  "<s:Envelope><s:Body>".toList ++ (m.chars ++ "</s:Body></s:Envelope>".toList)

def enclosedLexemes (m : Content) : List Lexeme :=
  openingTag "s:Envelope" [] :: openingTag "s:Body" [] ::
    (m.lexemes ++ [closingTag "s:Body", closingTag "s:Envelope"])

theorem lexemes_enclosed (m : Content) : lexemes (enclosed m) = enclosedLexemes m := by
  refine lexemes_eq ?_ ?_
  · show Lexed ((openingTag "s:Envelope" []).source ++ ((openingTag "s:Body" []).source ++
      (m.chars ++ ((closingTag "s:Body").source ++ (closingTag "s:Envelope").source)))) [] _
    exact (lexed_openingTag (by decide) properAttributes_nil _).append
      ((lexed_openingTag (by decide) properAttributes_nil _).append
        ((m.lexed (endsText_markup _)).append
          ((lexed_closingTag (by decide) _).append (lexed_closingTag (by decide) []))))
  · have hbody := m.balanced.tags "s:Body" []
    have henvelope := hbody.tags "s:Envelope" []
    rwa [List.cons_append, List.append_assoc] at henvelope

theorem bodyOfChars_enclosed (m : Content) : bodyOfChars (enclosed m) = .ok m.chars := by
  unfold bodyOfChars
  rw [lexemes_enclosed]
  unfold enclosedLexemes openingTag closingTag
  rw [findBody_envelope (by decide)]
  refine findBody_body (by decide) ?_
  -- elements of the same name in the content are closed in it, so the end is found behind it
  rw [m.balanced.innerSource?_closing, (m.lexed endsText_nil).sources]

theorem callOf_withoutMark (m : Content) : callOf m.withoutMark = callOf m := by
  unfold callOf
  rw [m.elements_withoutMark]

theorem decodeRequest_content (m : Content) : decodeRequest (Utf8.encodeChars (enclosed m)) = callOf m := by
  unfold decodeRequest body
  rw [Utf8.decodeChars_encodeChars]
  simp only [bodyOfChars_enclosed]
  show readCallFrom {} ((lexemes m.chars).map Lexeme.token) = callOf m
  rw [m.lexemes_chars, ← callOf_withoutMark]
  exact readCallFrom_bodyContent m.withoutMark

/-- Whatever stands in the body, it is read as the call that its first element makes, and no prefix
changes the name or the arguments. -/
theorem decodeRequest_enclosed (m : Content) :
    decodeRequest (Utf8.encodeChars (enclosed m)) = callOf m ∧
      ∀ m', m.Alike m' → (decodeRequest (Utf8.encodeChars (enclosed m'))).map (fun c => (c.name, c.arguments)) =
        (decodeRequest (Utf8.encodeChars (enclosed m))).map (fun c => (c.name, c.arguments)) := by
  constructor
  · exact decodeRequest_content m
  · intro m' h
    rw [decodeRequest_content, decodeRequest_content, callOf_alike h]

/-! ## A body with elements of its own name, nested text and two ways of naming the action -/

def noSpace : Space :=
  ⟨[], fun _ h => absurd h List.not_mem_nil⟩

def runOf (s : String) (h : s.toList.all isTextChar = true) : TextRun :=
  ⟨s.toList, fun c hc => isTextChar_iff.1 (List.all_eq_true.1 h c hc)⟩

def namespaceAttribute (name : String) (h : isName name.toList = true) : TagAttribute where
  gap := ⟨[' '], isSpace_of_mem_single⟩
  name := name.toList
  before := noSpace
  after := noSpace
  quote := '\''
  value := [.plain 'a' (by decide), .reference ⟨'&', "amp".toList, .predefined (by simp [predefinedNames])⟩]
  gap_ne_nil := List.cons_ne_nil _ _
  isName := h
  isQuote := .inr rfl
  quote_not_mem := by simp [ValueChar.chars, Reference.chars]

def plainTag (qualifier : Option (List Char)) (base : String) (hn : isName (qualified qualifier base.toList) = true)
    (hc : ':' ∉ qualifier.getD base.toList) (attributes : List TagAttribute)
    (hd : (attributes.map TagAttribute.name).Nodup) : ElementTag :=
  ⟨⟨qualifier, base.toList, hn, hc⟩, attributes, noSpace, hd⟩

def prefixedLevelTag : ElementTag :=
  plainTag (some ['u']) "SetLevel" (by decide) (by simp) [namespaceAttribute "xmlns:u" (by decide)] (by simp)

def bareLevelTag : ElementTag :=
  plainTag none "SetLevel" (by decide) (by simp) [namespaceAttribute "xmlns" (by decide)] (by simp)

theorem capitalA : Numeral 16 (['4'] ++ ['1']) 'A'.toNat :=
  .more (.digit (show digitIn? 16 '4' = some 4 by decide)) (show digitIn? 16 '1' = some 1 by decide)

/-- A level with an element, a reference and a passage of raw characters in its text. -/
def levelContent : Content :=
  .element (runOf "4" rfl) (plainTag none "unit" (by decide) (by simp) [] List.nodup_nil) (.text (runOf "lx" rfl)) noSpace
    (.piece (runOf "" rfl) (.reference ⟨'A', _, .hexadecimal (by decide) capitalA⟩)
      (.piece (runOf " " rfl) (.cdata "<5>".toList (by rw [← splitOnce?_eq_none]; decide)) (.text (runOf "" rfl))))

def levelBody (action : ElementTag) : Content :=
  .piece (runOf "\n" rfl) (.comment " dim ".toList (by rw [← splitOnce?_eq_none]; decide))
    (.element (runOf " " rfl) action
      (.element (runOf "to" rfl) (plainTag none "Level" (by decide) (by simp) [] List.nodup_nil) levelContent noSpace
        (.element (runOf "" rfl) (plainTag (some ['s']) "Body" (by decide) (by simp) [] List.nodup_nil)
          (.text (runOf "z" rfl)) noSpace
          (.empty (runOf "" rfl) (plainTag none "Ramp" (by decide) (by simp) [] List.nodup_nil) (.text (runOf "" rfl)))))
      noSpace (.text (runOf "" rfl)))

theorem decodeRequest_enclosed_level :
    enclosed (levelBody prefixedLevelTag) = ("<s:Envelope><s:Body>\n<!-- dim --> <u:SetLevel xmlns:u='a&amp;'>" ++
      "to<Level>4<unit>lx</unit>&#x41; <![CDATA[<5>]]></Level><s:Body>z</s:Body><Ramp/></u:SetLevel>" ++
      "</s:Body></s:Envelope>").toList ∧
    (levelBody prefixedLevelTag).Alike (levelBody bareLevelTag) ∧
    decodeRequest (Utf8.encodeChars (enclosed (levelBody prefixedLevelTag))) =
      .ok ⟨"SetLevel", some "a&", [("Level", "4A <5>"), ("Body", "z"), ("Ramp", "")]⟩ ∧
    (decodeRequest (Utf8.encodeChars (enclosed (levelBody bareLevelTag)))).map (fun c => (c.name, c.arguments)) =
      .ok ("SetLevel", [("Level", "4A <5>"), ("Body", "z"), ("Ramp", "")]) := by
  obtain ⟨hread, hnames⟩ := decodeRequest_enclosed (levelBody prefixedLevelTag)
  have halike : (levelBody prefixedLevelTag).Alike (levelBody bareLevelTag) :=
    .piece _ _ (.element _ _ _ rfl (.refl _) (.refl _))
  have hcall : callOf (levelBody prefixedLevelTag) =
      .ok ⟨"SetLevel", some "a&", [("Level", "4A <5>"), ("Body", "z"), ("Ramp", "")]⟩ := rfl
  refine ⟨by decide +kernel, halike, hread.trans hcall, ?_⟩
  rw [hnames _ halike, hread, hcall]
  rfl

end Upnp.Soap
