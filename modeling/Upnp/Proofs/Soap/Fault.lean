import Upnp.Proofs.Decimal.Integer
import Upnp.Proofs.Soap.Call

/-
Faults survive their message: a written fault is read with its code and its description, whatever
characters the description holds.
-/

namespace Upnp.Soap

open Upnp.Text Upnp.Markup Upnp.Xml Upnp.Decimal

/-! ## Adding text -/

namespace FaultState

/-- The reader stands in none of the elements whose text counts. -/
def Quiet (s : FaultState) : Prop :=
  s.field ≠ some "errorCode".toList ∧ s.field ≠ some "errorDescription".toList

variable (inFault : Bool) (code description cs : List Char)

theorem quiet_none : Quiet ⟨inFault, none, code, description⟩ :=
  ⟨(fun h => nomatch h), (fun h => nomatch h)⟩

theorem addText_nil (s : FaultState) : s.addText [] = s := by
  unfold addText addDescription addCode
  rw [List.append_nil, ite_self, List.append_nil, ite_self]

theorem addText_quiet {s : FaultState} (hs : s.Quiet) : s.addText cs = s := by
  unfold addText addDescription addCode
  rw [if_neg hs.1, if_neg hs.2]

theorem addText_errorCode : addText ⟨inFault, some "errorCode".toList, code, description⟩ cs =
    ⟨inFault, some "errorCode".toList, code ++ cs, description⟩ := by
  have hne : some "errorCode".toList ≠ some "errorDescription".toList := by decide
  unfold addText addDescription addCode
  rw [if_pos rfl, if_neg hne]

theorem addText_errorDescription : addText ⟨inFault, some "errorDescription".toList, code, description⟩ cs =
    ⟨inFault, some "errorDescription".toList, code, description ++ cs⟩ := by
  have hne : some "errorDescription".toList ≠ some "errorCode".toList := by decide
  unfold addText addDescription addCode
  rw [if_neg hne, if_pos rfl]

end FaultState

/-! ## Passing over what is no field -/

theorem readFaultFrom_text {s : FaultState} (hs : s.Quiet) (cs : List Char) (more : List Token) :
    readFaultFrom s (.text cs :: more) = readFaultFrom s more := by
  rw [readFaultFrom, FaultState.addText_quiet cs hs]

theorem readFaultFrom_quiet {ts : List Token} {v : List Char} (h : Spells ts v) {s : FaultState} (hs : s.Quiet)
    (more : List Token) : readFaultFrom s (ts ++ more) = readFaultFrom s more := by
  induction h with
  | nil => rfl
  | text cs _ ih => rw [List.cons_append, readFaultFrom_text hs, ih]
  | reference hr _ ih => rw [List.cons_append, readFaultFrom, if_neg hs.2, ih]

theorem readFaultFrom_opening (name attributes : List Char) (s : FaultState) (more : List Token) :
    readFaultFrom s (.opening name attributes :: more) =
      readFaultFrom { s.enter (localName name) with field := some (localName name) } more :=
  rfl

theorem readFaultFrom_closing (name : List Char) (s : FaultState) (more : List Token) :
    readFaultFrom s (.closing name :: more) = readFaultFrom { s with field := none } more :=
  rfl

/-- An element whose text does not count. -/
theorem readFaultFrom_other {name value : String} (hv : value ≠ "")
    (hq : localName name.toList ≠ "errorCode".toList ∧ localName name.toList ≠ "errorDescription".toList)
    (field : Option (List Char)) (code description : List Char) (more : List Token) :
    readFaultFrom ⟨true, field, code, description⟩ ((textElementLexemes name value).map Lexeme.token ++ more) =
      readFaultFrom ⟨true, none, code, description⟩ more := by
  unfold textElementLexemes
  rw [if_neg hv, List.map_cons, List.map_append, List.cons_append, List.append_assoc]
  show readFaultFrom _ (.opening name.toList _ :: _) = _
  rw [readFaultFrom_opening, readFaultFrom_quiet (spells_lex_escapeText value.toList)]
  · rfl
  · exact ⟨fun h => hq.1 (Option.some.inj h), fun h => hq.2 (Option.some.inj h)⟩

/-! ## Code and description -/

theorem readFaultFrom_description {ts : List Token} {v : List Char} (h : Spells ts v) (code description : List Char)
    (more : List Token) :
    readFaultFrom ⟨true, some "errorDescription".toList, code, description⟩ (ts ++ more) =
      readFaultFrom ⟨true, some "errorDescription".toList, code, description ++ v⟩ more := by
  induction h generalizing description with
  | nil => rw [List.nil_append, List.append_nil]
  | text cs _ ih => rw [List.cons_append, readFaultFrom, FaultState.addText_errorDescription, ih, List.append_assoc]
  | @reference name c ts v hr _ ih =>
    rw [List.cons_append, readFaultFrom, if_pos rfl, resolve_of_referenced? hr]
    unfold FaultState.addDescription
    simp only [if_true]
    rw [ih, List.append_assoc, List.singleton_append]

theorem localName_errorDescription : localName "errorDescription".toList = "errorDescription".toList := by
  decide

theorem localName_errorCode : localName "errorCode".toList = "errorCode".toList := by
  decide

theorem readFaultFrom_errorDescription (value : String) (code : List Char) (more : List Token) :
    readFaultFrom ⟨true, none, code, []⟩
      ((textElementLexemes "errorDescription" value).map Lexeme.token ++ more) =
      readFaultFrom ⟨true, none, code, value.toList⟩ more := by
  unfold textElementLexemes
  by_cases h : value = ""
  · rw [if_pos h, h]
    rfl
  · rw [if_neg h, List.map_cons, List.map_append, List.cons_append, List.append_assoc]
    show readFaultFrom _ (.opening "errorDescription".toList _ :: _) = _
    rw [readFaultFrom_opening, localName_errorDescription]
    show readFaultFrom ⟨true, some "errorDescription".toList, code, []⟩ _ = _
    rw [readFaultFrom_description (spells_lex_escapeText value.toList)]
    rfl

theorem lex_plain {cs : List Char} (hne : cs ≠ []) (h : ∀ c ∈ cs, escapeTextChar c = [c]) :
    lex (escapeText cs) = [⟨.text cs, cs⟩] := by
  rw [escapeText_of_plain h]
  exact (lexed_text hne (fun c hc => (escapeTextChar_escape c).isTextChar (h c hc)) endsText_nil).lex_self

theorem escapeTextChar_of_isDigit {c : Char} (h : c.isDigit = true) : escapeTextChar c = [c] := by
  unfold escapeTextChar
  split
  · exact absurd h (by decide)
  · exact absurd h (by decide)
  · exact absurd h (by decide)
  · rfl

theorem readFaultFrom_errorCode (n : Nat) (field : Option (List Char)) (more : List Token) :
    readFaultFrom ⟨true, field, [], []⟩
      ((textElementLexemes "errorCode" (showInt n)).map Lexeme.token ++ more) =
      readFaultFrom ⟨true, none, (showInt n).toList, []⟩ more := by
  have hne := showInt_toList_ne_nil n
  have hv : showInt n ≠ "" := fun he => hne (by rw [he]; rfl)
  unfold textElementLexemes
  rw [if_neg hv, lex_plain hne fun c hc => escapeTextChar_of_isDigit (isDigit_of_mem_showInt c hc)]
  show readFaultFrom _ (.opening "errorCode".toList _ :: .text (showInt n).toList :: .closing _ :: more) = _
  rw [readFaultFrom_opening, localName_errorCode]
  show readFaultFrom ⟨true, some "errorCode".toList, [], []⟩ _ = _
  rw [readFaultFrom, FaultState.addText_errorCode, readFaultFrom_closing, List.nil_append]

/-! ## The result -/

theorem not_isBlank_of_isDigit {c : Char} (h : c.isDigit = true) : isBlank c = false := by
  have hb : 48 ≤ c.toNat ∧ c.toNat ≤ 57 := by
    simp only [Char.isDigit, Bool.and_eq_true, decide_eq_true_eq, UInt32.le_iff_toNat_le] at h
    exact h
  unfold isBlank
  simp only [Bool.or_eq_false_iff, Bool.and_eq_false_iff, beq_eq_false_iff_ne, decide_eq_false_iff_not]
  omega

theorem FaultState.result_of_code {n : Nat} (hn : n < 4294967296) (description : String) :
    FaultState.result ⟨true, none, (showInt n).toList, description.toList⟩ = .ok ⟨n, description⟩ := by
  have hread : readIntChars .unsigned32 (showInt n).toList = .ok n :=
    readIntChars_showInt (show (n : Int) ≤ 4294967295 by omega)
  unfold FaultState.result
  have hblank : ∀ c ∈ (showInt n).toList, isBlank c = false := fun c hc =>
    not_isBlank_of_isDigit (isDigit_of_mem_showInt c hc)
  rw [trimChars_of_ends (fun c hc => hblank c (List.mem_of_head? hc)) fun c hc => hblank c (List.mem_of_getLast? hc)]
  simp [hread, text]

/-! ## Messages -/

/-- What tells about the error in a fault. -/
def errorNode (f : Fault) : Node :=
  .element "UPnPError" [("xmlns", controlNamespace)]
    [(Element.ofText "errorCode" (showInt f.code)).toNode, (Element.ofText "errorDescription" f.description).toNode]

def detailNode (f : Fault) : Node :=
  .element "detail" [] [errorNode f]

def faultChildren (f : Fault) : List Node :=
  [(Element.ofText "faultcode" "s:Client").toNode, (Element.ofText "faultstring" "UPnPError").toNode, detailNode f]

theorem faultChildren_ne_nil (f : Fault) : faultChildren f ≠ [] :=
  List.cons_ne_nil _ _

theorem faultElement_toNode (f : Fault) : (faultElement f).toNode = .element "s:Fault" [] (faultChildren f) :=
  rfl

theorem proper_errorFields (f : Fault) : ∀ c ∈ [(Element.ofText "errorCode" (showInt f.code)).toNode,
    (Element.ofText "errorDescription" f.description).toNode], Proper c := by
  intro c hc
  rcases List.mem_cons.1 hc with rfl | hc
  · exact proper_ofText (by decide) _
  · rw [List.mem_singleton.1 hc]
    exact proper_ofText (by decide) _

theorem proper_errorNode (f : Fault) : Proper (errorNode f) := by
  refine .ofElements (by decide) ?_ (proper_errorFields f)
  unfold ProperAttributes
  decide

theorem proper_detail (f : Fault) : ∀ c ∈ [errorNode f], Proper c := by
  intro c hc
  rw [List.mem_singleton.1 hc]
  exact proper_errorNode f

theorem proper_faultChildren (f : Fault) : ∀ c ∈ faultChildren f, Proper c := by
  intro c hc
  rcases List.mem_cons.1 hc with rfl | hc
  · exact proper_ofText (by decide) _
  · rcases List.mem_cons.1 hc with rfl | hc
    · exact proper_ofText (by decide) _
    · rw [List.mem_singleton.1 hc]
      exact .ofElements (by decide) properAttributes_nil (proper_detail f)

theorem proper_faultElement (f : Fault) : Proper (faultElement f).toNode := by
  rw [faultElement_toNode]
  exact .ofElements (by decide) properAttributes_nil (proper_faultChildren f)

/-- Inside a fault, the opening tag of an element without a counting text. -/
theorem readFaultFrom_enter {name : List Char} (hl : localName name = name)
    (hq : name ≠ "errorCode".toList ∧ name ≠ "errorDescription".toList) (attributes : List Char)
    (field : Option (List Char)) (code description cs : List Char) (more : List Token) :
    readFaultFrom ⟨true, field, code, description⟩ (.opening name attributes :: .text cs :: more) =
      readFaultFrom ⟨true, some name, code, description⟩ more := by
  rw [readFaultFrom_opening, hl]
  show readFaultFrom ⟨true, some name, code, description⟩ (.text cs :: more) = _
  rw [readFaultFrom_text ⟨fun h => hq.1 (Option.some.inj h), fun h => hq.2 (Option.some.inj h)⟩]

theorem readFaultFrom_leave (name code description cs : List Char) (more : List Token) :
    readFaultFrom ⟨true, none, code, description⟩ (.text cs :: .closing name :: more) =
      readFaultFrom ⟨true, none, code, description⟩ more := by
  rw [readFaultFrom_text (FaultState.quiet_none true code description), readFaultFrom_closing]

theorem readFaultFrom_break (code description cs : List Char) (more : List Token) :
    readFaultFrom ⟨true, none, code, description⟩ (.text cs :: more) =
      readFaultFrom ⟨true, none, code, description⟩ more :=
  readFaultFrom_text (FaultState.quiet_none true code description) cs more

/-- The fields of the error are read into code and description. -/
theorem readFaultFrom_errorNode (f : Fault) (field : Option (List Char)) (more : List Token) :
    readFaultFrom ⟨true, field, [], []⟩ ((nodeLexemes 4 (errorNode f)).map Lexeme.token ++ more) =
      readFaultFrom ⟨true, none, (showInt f.code).toList, f.description.toList⟩ more := by
  unfold errorNode
  rw [nodeLexemes_ofElements 4 (List.cons_ne_nil _ _) (proper_errorFields f), childLexemes_cons, childLexemes_single,
    nodeLexemes_ofText, nodeLexemes_ofText, if_neg Bool.false_ne_true]
  simp only [List.map_cons, List.map_append, List.cons_append, List.append_assoc, List.nil_append, List.map_nil]
  show readFaultFrom _ (.opening "UPnPError".toList _ :: .text (newLine 5) :: (_ ++ .text (newLine 5) :: (_ ++
    .text (newLine 4) :: .closing _ :: more))) = _
  rw [readFaultFrom_enter (by decide) (by decide), readFaultFrom_errorCode, readFaultFrom_break,
    readFaultFrom_errorDescription, readFaultFrom_leave]

theorem readFaultFrom_detailNode (f : Fault) (field : Option (List Char)) (more : List Token) :
    readFaultFrom ⟨true, field, [], []⟩ ((nodeLexemes 3 (detailNode f)).map Lexeme.token ++ more) =
      readFaultFrom ⟨true, none, (showInt f.code).toList, f.description.toList⟩ more := by
  unfold detailNode
  rw [nodeLexemes_ofElements 3 (List.cons_ne_nil _ _) (proper_detail f), childLexemes_single]
  simp only [List.map_cons, List.map_append, List.cons_append, List.append_assoc, List.nil_append, List.map_nil]
  show readFaultFrom _ (.opening "detail".toList _ :: .text (newLine 4) :: (_ ++
    .text (newLine 3) :: .closing _ :: more)) = _
  rw [readFaultFrom_enter (by decide) (by decide), readFaultFrom_errorNode, readFaultFrom_leave]

/-- The body of a written fault is read as the fault. -/
theorem readFaultFrom_faultElement {f : Fault} (hc : f.code < 4294967296) :
    readFaultFrom {} (tokensOf (bodyChars (faultElement f))) = .ok f := by
  have hlocal : localName "s:Fault".toList = "Fault".toList := by decide
  have henter : FaultState.enter {} "Fault".toList = ⟨true, none, [], []⟩ := by
    unfold FaultState.enter
    rw [beq_self_eq_true]
    rfl
  rw [tokensOf_bodyChars (proper_faultElement f), faultElement_toNode,
    nodeLexemes_ofElements 2 (faultChildren_ne_nil f) (proper_faultChildren f)]
  unfold faultChildren
  rw [childLexemes_cons, childLexemes_cons, childLexemes_single, nodeLexemes_ofText, nodeLexemes_ofText,
    if_neg Bool.false_ne_true]
  simp only [List.map_cons, List.map_append, List.cons_append, List.append_assoc, List.nil_append, List.map_nil]
  show readFaultFrom {} (.text (newLine 2) :: .opening "s:Fault".toList _ :: .text (newLine 3) :: (_ ++
    .text (newLine 3) :: (_ ++ .text (newLine 3) :: (_ ++ .text (newLine 2) :: .closing _ :: [.text (newLine 1)])))) = _
  rw [readFaultFrom_text (FaultState.quiet_none _ _ _), readFaultFrom_opening, hlocal, henter]
  show readFaultFrom ⟨true, some "Fault".toList, [], []⟩ _ = _
  -- code and text of the fault itself are passed over, then the detail is read
  rw [readFaultFrom_text ⟨by decide, by decide⟩,
    readFaultFrom_other (by decide) (by decide), readFaultFrom_break,
    readFaultFrom_other (by decide) (by decide), readFaultFrom_break, readFaultFrom_detailNode,
    readFaultFrom_leave, readFaultFrom_break, readFaultFrom]
  exact FaultState.result_of_code hc f.description

/-- A message that reports a fault is read as the fault. -/
theorem decodeFault_encodeFault {f : Fault} (hc : f.code < 4294967296) :
    decodeFault (Utf8.encode (encodeFault f)) = .ok f := by
  unfold decodeFault encodeFault
  rw [body_encode_envelope (proper_faultElement f)]
  simp only [bind, Except.bind]
  exact readFaultFrom_faultElement hc

/-- Every code of 32 bits and every description survive the message that reports them. -/
theorem decodeFault_encodeFault_code32 (code : UInt32) (description : String) :
    decodeFault (Utf8.encode (encodeFault ⟨code.toNat, description⟩)) = .ok ⟨code.toNat, description⟩ :=
  decodeFault_encodeFault code.toNat_lt

end Upnp.Soap
