import Upnp.Proofs.Soap.Envelope

/-
Calls survive their message. A request or response that was written for an action is read as that
action, its service type and its arguments with their values, whatever characters the values hold.
-/

namespace Upnp.Soap

open Upnp.Text Upnp.Markup Upnp.Xml

/-! ## Names without prefix -/

/-- A name without prefix. -/
def isLocalName (cs : List Char) : Bool :=
  isName cs && !cs.contains ':'

theorem isLocalName_iff {cs : List Char} : isLocalName cs = true ↔ isName cs = true ∧ ':' ∉ cs := by
  simp [isLocalName]

theorem localName_of_isLocalName {cs : List Char} (h : isLocalName cs = true) : localName cs = cs :=
  localName_of_not_mem (isLocalName_iff.1 h).2

/-- The name of an action's element. -/
def prefixed (name : String) : String :=
  "u:" ++ name

theorem prefixed_toList (name : String) : (prefixed name).toList = 'u' :: ':' :: name.toList := by
  unfold prefixed
  rw [String.toList_append]
  rfl

theorem localName_prefixed (name : String) : localName (prefixed name).toList = name.toList := by
  rw [prefixed_toList]
  exact localName_append (q := ['u']) (by simp) name.toList

theorem isName_prefixed {name : String} (h : isLocalName name.toList = true) :
    isName (prefixed name).toList = true := by
  rw [prefixed_toList]
  exact isName_append (show isName ['u', ':'] = true by decide) (isNameChar_of_mem (isLocalName_iff.1 h).1)

/-! ## Reading texts and references -/

theorem resolve_of_referenced? {name : List Char} {c : Char} (h : referenced? name = some c) :
    resolve name = .ok [c] := by
  unfold referenced? at h
  unfold resolve
  by_cases hs : ∃ number, name = '#' :: number
  · obtain ⟨number, rfl⟩ := hs
    change charOfNumber? number = some c at h
    simp only [h]
  · have hp : predefined? name = some c := by simpa [not_exists.1 hs] using h
    simp [not_exists.1 hs, hp]

/-- In an argument, tokens that spell a text add the text to the value. -/
theorem readCallFrom_spells {ts : List Token} {v : List Char} (h : Spells ts v) (call : Option Call)
    (name value : List Char) (more : List Token) :
    readCallFrom ⟨2, call, some ⟨name, value⟩⟩ (ts ++ more) =
      readCallFrom ⟨2, call, some ⟨name, value ++ v⟩⟩ more := by
  induction h generalizing value with
  | nil => rw [List.nil_append, List.append_nil]
  | text cs _ ih =>
    rw [List.cons_append, readCallFrom]
    exact (ih (value ++ cs)).trans (by rw [List.append_assoc])
  | @reference name c ts v hr _ ih =>
    rw [List.cons_append, readCallFrom]
    simp only [resolve_of_referenced? hr, if_true]
    exact (ih (value ++ [c])).trans (by rw [List.append_assoc, List.singleton_append])

theorem readCallFrom_blank (call : Option Call) (cs : List Char) (more : List Token) :
    readCallFrom ⟨1, call, none⟩ (.text cs :: more) = readCallFrom ⟨1, call, none⟩ more := by
  rw [readCallFrom]
  rfl

/-! ## Reading arguments -/

/-- The call with another argument behind the others. -/
def Call.addArgument (c : Call) (name value : String) : Call :=
  { c with arguments := c.arguments ++ [(name, value)] }

theorem readCallFrom_emptyArgument (c : Call) (name attributes : List Char) (more : List Token) :
    readCallFrom ⟨1, some c, none⟩ (.empty name attributes :: more) =
      readCallFrom ⟨1, some (c.addArgument (text (localName name)) ""), none⟩ more := by
  rw [readCallFrom]
  rfl

/-- An argument is added to the call when its element ends. -/
theorem readCallFrom_endArgument (c : Call) (name value closing : List Char) (more : List Token) :
    readCallFrom ⟨2, some c, some ⟨name, value⟩⟩ (.closing closing :: more) =
      readCallFrom ⟨1, some (c.addArgument (text name) (text value)), none⟩ more := by
  rw [readCallFrom]
  rfl

theorem readCallFrom_argument {name : String} (hn : isLocalName name.toList = true) (value : String) (c : Call)
    (more : List Token) :
    readCallFrom ⟨1, some c, none⟩ ((textElementLexemes name value).map Lexeme.token ++ more) =
      readCallFrom ⟨1, some (c.addArgument name value), none⟩ more := by
  unfold textElementLexemes
  by_cases h : value = ""
  · rw [if_pos h, h]
    show readCallFrom _ (.empty name.toList _ :: more) = _
    rw [readCallFrom_emptyArgument, localName_of_isLocalName hn, text, String.ofList_toList]
  · rw [if_neg h, List.map_cons, List.map_append, List.cons_append, List.append_assoc]
    show readCallFrom _ (.opening name.toList _ :: _) = _
    rw [readCallFrom]
    simp only [localName_of_isLocalName hn]
    rw [readCallFrom_spells (spells_lex_escapeText value.toList)]
    show readCallFrom _ (.closing name.toList :: more) = _
    rw [readCallFrom_endArgument, List.nil_append, text, text, String.ofList_toList, String.ofList_toList]

/-- The arguments are read one after the other. -/
theorem readCallFrom_arguments {arguments : List (String × String)}
    (hn : ∀ a ∈ arguments, isLocalName a.1.toList = true) (c : Call) (more : List Token) :
    readCallFrom ⟨1, some c, none⟩
      ((arguments.flatMap fun a => lineBreak 3 :: textElementLexemes a.1 a.2).map Lexeme.token ++ more) =
      readCallFrom ⟨1, some { c with arguments := c.arguments ++ arguments }, none⟩ more := by
  induction arguments generalizing c with
  | nil => rw [List.append_nil]; rfl
  | cons a arguments ih =>
    have hrest := ih (fun b hb => hn b (List.mem_cons_of_mem a hb)) (c.addArgument a.1 a.2)
    rw [List.flatMap_cons, List.cons_append, List.map_cons, List.map_append, List.cons_append, List.append_assoc]
    show readCallFrom _ (.text (newLine 3) :: _) = _
    rw [readCallFrom_blank, readCallFrom_argument (hn a List.mem_cons_self), hrest]
    simp [Call.addArgument]

/-! ## Reading calls -/

theorem isName_namespaceAttribute : isName "xmlns:u".toList = true := by
  decide

theorem isNamespace_namespaceAttribute (value : List Char) : Attribute.isNamespace ⟨"xmlns:u".toList, value⟩ = true := by
  show ("xmlns:u".toList == "xmlns".toList || "xmlns:".toList.isPrefixOf "xmlns:u".toList) = true
  decide

theorem proper_actionElement {name : String} (hn : isLocalName name.toList = true) (serviceType : String)
    {arguments : List (String × String)} (ha : ∀ a ∈ arguments, isName a.1.toList = true) :
    Proper (actionElement serviceType name arguments).toNode := by
  refine .ofElements (isName_prefixed hn) ?_ fun c hc => ?_
  · intro a hm
    rw [List.mem_singleton.1 hm]
    exact isName_namespaceAttribute
  · obtain ⟨a, hm, rfl⟩ := List.mem_map.1 hc
    exact proper_ofText (ha a hm) a.2

theorem childLexemes_arguments (arguments : List (String × String)) :
    childLexemes 3 false (arguments.map fun (n, v) => (Element.ofText n v).toNode) =
      arguments.flatMap fun a => lineBreak 3 :: textElementLexemes a.1 a.2 := by
  induction arguments with
  | nil => exact childLexemes_nil 3 false
  | cons a arguments ih =>
    rw [List.map_cons, childLexemes_cons, ih, nodeLexemes_ofText, List.flatMap_cons]
    rfl

theorem callOfTag_written (serviceType name : String) (rest : List Char) :
    callOfTag (prefixed name).toList (writeAttributes [("xmlns:u", serviceType)] ++ rest) =
      .ok ⟨name, some serviceType, []⟩ := by
  unfold callOfTag
  rw [namespaceOf_written isName_namespaceAttribute serviceType (isNamespace_namespaceAttribute _) rest, localName_prefixed]
  simp only [text, String.ofList_toList]

/-- The body of a written call is read as the call. -/
theorem readCallFrom_actionElement {name : String} (hn : isLocalName name.toList = true) (serviceType : String)
    {arguments : List (String × String)} (ha : ∀ a ∈ arguments, isLocalName a.1.toList = true) :
    readCallFrom {} (tokensOf (bodyChars (actionElement serviceType name arguments))) =
      .ok ⟨name, some serviceType, arguments⟩ := by
  have hnames : ∀ a ∈ arguments, isName a.1.toList = true := fun a hm => (isLocalName_iff.1 (ha a hm)).1
  have hp := proper_actionElement hn serviceType hnames
  rw [tokensOf_bodyChars hp]
  show readCallFrom {} (.text (newLine 2) :: ((nodeLexemes 2 (.element (prefixed name) [("xmlns:u", serviceType)]
    (arguments.map fun (n, v) => (Element.ofText n v).toNode))).map Lexeme.token ++ _)) = _
  rw [readCallFrom]
  by_cases hne : arguments = []
  · subst hne
    rw [List.map_nil, nodeLexemes_element]
    show readCallFrom {} (.empty (prefixed name).toList (writeAttributes [("xmlns:u", serviceType)] ++ [' ']) :: _) = _
    rw [readCallFrom]
    exact callOfTag_written serviceType name [' ']
  · have hchildren : (arguments.map fun (n, v) => (Element.ofText n v).toNode) ≠ [] := by
      simpa using hne
    have hproper : ∀ c ∈ arguments.map fun (n, v) => (Element.ofText n v).toNode, Proper c := by
      intro c hc
      obtain ⟨a, hm, rfl⟩ := List.mem_map.1 hc
      exact proper_ofText (hnames a hm) a.2
    have htag := callOfTag_written serviceType name []
    rw [List.append_nil] at htag
    rw [nodeLexemes_ofElements 2 hchildren hproper, childLexemes_arguments, List.map_cons, List.map_append,
      List.cons_append, List.append_assoc]
    show readCallFrom {} (.opening (prefixed name).toList (writeAttributes [("xmlns:u", serviceType)]) :: _) = _
    rw [readCallFrom]
    simp only [htag]
    rw [readCallFrom_arguments ha]
    show readCallFrom _ (.text (newLine 2) :: .closing (prefixed name).toList :: _) = _
    rw [readCallFrom_blank, readCallFrom]
    rfl

/-! ## Messages -/

/-- A request is read as the call that it was written for. -/
theorem decodeRequest_encodeRequest {name : String} (hn : isLocalName name.toList = true) (serviceType : String)
    {arguments : List (String × String)} (ha : ∀ a ∈ arguments, isLocalName a.1.toList = true) :
    decodeRequest (Utf8.encode (encodeRequest serviceType name arguments)) =
      .ok ⟨name, some serviceType, arguments⟩ := by
  unfold decodeRequest encodeRequest
  rw [body_encode_envelope (proper_actionElement hn serviceType fun a hm => (isLocalName_iff.1 (ha a hm)).1)]
  exact readCallFrom_actionElement hn serviceType ha

theorem stripEnd?_append (name suffix : String) : stripEnd? suffix (name ++ suffix) = some name := by
  have hs : suffix.toList.isSuffixOf (name ++ suffix).toList = true := by
    rw [List.isSuffixOf_iff_suffix, String.toList_append]
    exact List.suffix_append _ _
  unfold stripEnd?
  rw [if_pos hs, String.toList_append, List.length_append, Nat.add_sub_cancel, List.take_left, String.ofList_toList]

theorem isLocalName_response {name : String} (hn : isLocalName name.toList = true) :
    isLocalName (name ++ responseEnd).toList = true := by
  rw [isLocalName_iff] at hn ⊢
  rw [String.toList_append]
  refine ⟨isName_append hn.1 (List.all_eq_true.1 (by decide)), fun hm => ?_⟩
  rcases List.mem_append.1 hm with hm | hm
  · exact hn.2 hm
  · exact absurd hm (by decide)

/-- A response is read under the name of the action that it was written for. -/
theorem decodeResponse_encodeResponse {name : String} (hn : isLocalName name.toList = true) (serviceType : String)
    {arguments : List (String × String)} (ha : ∀ a ∈ arguments, isLocalName a.1.toList = true) :
    decodeResponse (Utf8.encode (encodeResponse serviceType name arguments)) =
      .ok ⟨name, some serviceType, arguments⟩ := by
  unfold decodeResponse encodeResponse
  rw [decodeRequest_encodeRequest (isLocalName_response hn) serviceType ha]
  show Except.ok (Call.mk ((stripEnd? responseEnd (name ++ responseEnd)).getD (name ++ responseEnd)) _ _) = _
  rw [stripEnd?_append, Option.getD_some]

/-- Decoding undoes encoding, in both directions of a call. -/
theorem decode_encode_call {name : String} (hn : isLocalName name.toList = true) (serviceType : String)
    {arguments : List (String × String)} (ha : ∀ a ∈ arguments, isLocalName a.1.toList = true) :
    decodeRequest (Utf8.encode (encodeRequest serviceType name arguments)) = .ok ⟨name, some serviceType, arguments⟩ ∧
      decodeResponse (Utf8.encode (encodeResponse serviceType name arguments)) =
        .ok ⟨name, some serviceType, arguments⟩ :=
  ⟨decodeRequest_encodeRequest hn serviceType ha, decodeResponse_encodeResponse hn serviceType ha⟩

theorem decode_encode_call_lastResponse :
    isLocalName "LastResponse".toList = true ∧
    (∀ a ∈ [("Line", "<a b=\"c\">&amp;\r\n]]>"), ("Line", ""), ("Größe", " \t")], isLocalName a.1.toList = true) ∧
    decodeRequest (Utf8.encode (encodeRequest "'urn' & \"more\"\n" "LastResponse"
      [("Line", "<a b=\"c\">&amp;\r\n]]>"), ("Line", ""), ("Größe", " \t")])) =
      .ok ⟨"LastResponse", some "'urn' & \"more\"\n",
        [("Line", "<a b=\"c\">&amp;\r\n]]>"), ("Line", ""), ("Größe", " \t")]⟩ ∧
    decodeResponse (Utf8.encode (encodeResponse "'urn' & \"more\"\n" "LastResponse"
      [("Line", "<a b=\"c\">&amp;\r\n]]>"), ("Line", ""), ("Größe", " \t")])) =
      .ok ⟨"LastResponse", some "'urn' & \"more\"\n",
        [("Line", "<a b=\"c\">&amp;\r\n]]>"), ("Line", ""), ("Größe", " \t")]⟩ := by
  have hn : isLocalName "LastResponse".toList = true := by decide
  have ha : ∀ a ∈ [("Line", "<a b=\"c\">&amp;\r\n]]>"), ("Line", ""), ("Größe", " \t")],
      isLocalName a.1.toList = true := by decide
  exact ⟨hn, ha, decode_encode_call hn _ ha⟩

end Upnp.Soap
