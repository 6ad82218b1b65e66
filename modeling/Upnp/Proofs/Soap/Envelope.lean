import Upnp.Soap.Encode
import Upnp.Proofs.Markup.Written
import Upnp.Proofs.Text.Utf8

/-
The body of a written message. The envelope around an element is found as it was put there, and the
body is the text of the element between two line breaks, ready to be read as a call or a fault.
-/

namespace Upnp.Soap

open Upnp.Text Upnp.Markup Upnp.Xml

/-! ## Messages -/

/-- The content of the declaration. -/
def declarationContent : List Char :=
  "xml version=\"1.0\" encoding=\"UTF-8\"".toList

theorem declaration_toList : declaration.toList = "<?".toList ++ (declarationContent ++ "?>".toList) := by
  decide

theorem lexed_declaration (rest : List Char) :
    Lexed declaration.toList rest [⟨.aside, declaration.toList⟩] := by
  have hno : ¬ "?>".toList <:+: '?' :: declarationContent := by
    rw [← splitOnce?_eq_none]
    decide
  rw [declaration_toList]
  exact lexed_instruction hno rest

theorem lexed_message {root : Element} (h : Proper root.toNode) : Lexed (writeChars root) []
    (⟨.aside, declaration.toList⟩ :: lineBreak 0 :: nodeLexemes 0 root.toNode) := by
  unfold writeChars
  rw [List.append_assoc]
  refine (lexed_declaration _).append (Lexed.append (lexed_lineBreak 0 ?_) (lexed_write h 0 []))
  obtain ⟨r, hr⟩ := write_of_proper h 0
  rw [hr, List.append_nil]
  exact endsText_markup r

theorem balanced_message {root : Element} (h : Proper root.toNode) :
    Balanced (⟨.aside, declaration.toList⟩ :: lineBreak 0 :: nodeLexemes 0 root.toNode) :=
  .leaf rfl (.leaf rfl (balanced_nodeLexemes h 0))

theorem lexemes_message {root : Element} (h : Proper root.toNode) : lexemes (writeChars root) =
    ⟨.aside, declaration.toList⟩ :: lineBreak 0 :: nodeLexemes 0 root.toNode := by
  have hl := lexed_message h
  obtain ⟨cs, hcs⟩ : ∃ cs, writeChars root = '<' :: cs := by
    unfold writeChars
    rw [declaration_toList]
    exact ⟨_, rfl⟩
  have hmark : withoutMark (writeChars root) = writeChars root := by
    rw [hcs]
    exact withoutMark_of_ne (by decide)
  rw [← hmark] at hl
  exact lexemes_eq hl (balanced_message h)

/-! ## The body of an envelope -/

def bodyNode (content : Element) : Node :=
  .element "s:Body" [] [content.toNode]

theorem envelope_toNode (content : Element) : (envelope content).toNode = .element "s:Envelope"
    [("s:encodingStyle", encodingStyle), ("xmlns:s", envelopeNamespace)] [bodyNode content] :=
  rfl

theorem proper_bodyNode {content : Element} (h : Proper content.toNode) : Proper (bodyNode content) :=
  .ofElements (by decide) properAttributes_nil fun c hc => by rw [List.mem_singleton.1 hc]; exact h

theorem proper_envelope {content : Element} (h : Proper content.toNode) : Proper (envelope content).toNode := by
  rw [envelope_toNode]
  refine .ofElements (by decide) ?_ fun c hc => ?_
  · unfold ProperAttributes
    decide
  · rw [List.mem_singleton.1 hc]
    exact proper_bodyNode h

/-- What stands in the body of an envelope around an element. -/
def bodyChars (content : Element) : List Char :=
  newLine 2 ++ (content.toNode.write 2 ++ newLine 1)

def bodyLexemes (content : Element) : List Lexeme :=
  lineBreak 2 :: (nodeLexemes 2 content.toNode ++ [lineBreak 1])

theorem lexed_body {content : Element} (h : Proper content.toNode) {rest : List Char} (hr : EndsText rest) :
    Lexed (bodyChars content) rest (bodyLexemes content) := by
  refine (lexed_lineBreak 2 ?_).append ((lexed_write h 2 _).append (lexed_lineBreak 1 hr))
  obtain ⟨r, hw⟩ := write_of_proper h 2
  rw [hw, List.append_assoc, List.cons_append]
  exact endsText_markup _

theorem balanced_body {content : Element} (h : Proper content.toNode) : Balanced (bodyLexemes content) :=
  .leaf rfl ((balanced_nodeLexemes h 2).append (balanced_lineBreak 1))

theorem childLexemes_single (depth : Nat) (n : Node) :
    childLexemes depth false [n] = lineBreak depth :: nodeLexemes depth n := by
  rw [childLexemes_cons, childLexemes_nil, List.append_nil]
  rfl

theorem nodeLexemes_bodyNode {content : Element} (h : Proper content.toNode) :
    nodeLexemes 1 (bodyNode content) = openingTag "s:Body" [] :: (bodyLexemes content ++ [closingTag "s:Body"]) := by
  unfold bodyNode bodyLexemes
  rw [nodeLexemes_ofElements 1 (List.cons_ne_nil _ _) fun c hc => by rw [List.mem_singleton.1 hc]; exact h,
    childLexemes_single]
  simp only [List.cons_append, List.append_assoc, List.nil_append]

theorem findBody_leaf {x : Lexeme} (hx : x.token = .aside ∨ ∃ cs, x.token = .text cs) (inEnvelope : Bool)
    (ls : List Lexeme) : findBody inEnvelope (x :: ls) = findBody inEnvelope ls := by
  obtain ⟨t, s⟩ := x
  rcases hx with rfl | ⟨cs, rfl⟩ <;> rfl

theorem findBody_envelope {name attributes s : List Char} (h : localName name = "Envelope".toList)
    (inEnvelope : Bool) (ls : List Lexeme) :
    findBody inEnvelope (⟨.opening name attributes, s⟩ :: ls) = findBody true ls :=
  if_pos h

theorem findBody_body {name attributes s inner : List Char} (h : localName name = "Body".toList) {ls : List Lexeme}
    (hi : innerSource? name 0 ls = some inner) :
    findBody true (⟨.opening name attributes, s⟩ :: ls) = .ok inner := by
  have hne : localName name ≠ "Envelope".toList := by
    rw [h]
    decide
  show (if localName name = "Envelope".toList then _ else if localName name = "Body".toList ∧ true = true then _ else _) = _
  rw [if_neg hne, if_pos ⟨h, rfl⟩, hi]

/-- The body of a written envelope is found as it was written. -/
theorem bodyOfChars_envelope {content : Element} (h : Proper content.toNode) :
    bodyOfChars (writeChars (envelope content)) = .ok (bodyChars content) := by
  have hbody := proper_bodyNode h
  have hne : [bodyNode content] ≠ [] := List.cons_ne_nil _ _
  unfold bodyOfChars
  rw [lexemes_message (proper_envelope h), findBody_leaf (.inl rfl), findBody_leaf (.inr ⟨_, rfl⟩), envelope_toNode,
    nodeLexemes_ofElements 0 hne fun c hc => by rw [List.mem_singleton.1 hc]; exact hbody]
  unfold openingTag
  rw [findBody_envelope (by decide), childLexemes_single, List.cons_append, findBody_leaf (.inr ⟨_, rfl⟩),
    nodeLexemes_bodyNode h]
  unfold openingTag closingTag
  simp only [List.cons_append, List.append_assoc, List.nil_append]
  -- the body is balanced, so its end is the closing tag behind it
  refine findBody_body (by decide) ?_
  rw [(balanced_body h).innerSource?_closing, (lexed_body h endsText_nil).sources]

/-- The tokens of the body of a written envelope. -/
theorem tokensOf_bodyChars {content : Element} (h : Proper content.toNode) :
    tokensOf (bodyChars content) =
      .text (newLine 2) :: ((nodeLexemes 2 content.toNode).map Lexeme.token ++ [.text (newLine 1)]) := by
  have hl := lexed_body h endsText_nil
  unfold tokensOf
  have hmark : withoutMark (bodyChars content) = bodyChars content := rfl
  rw [← hmark] at hl
  rw [lexemes_eq hl (balanced_body h)]
  unfold bodyLexemes
  rw [List.map_cons, List.map_append]
  rfl

theorem body_encode_envelope {content : Element} (h : Proper content.toNode) :
    body (Utf8.encode (write (envelope content))) = .ok (bodyChars content) := by
  unfold body Utf8.encode write
  rw [String.toList_ofList, Utf8.decodeChars_encodeChars]
  exact bodyOfChars_envelope h

end Upnp.Soap
