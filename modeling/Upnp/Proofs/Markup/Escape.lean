import Upnp.Markup.Attribute
import Upnp.Proofs.Markup.Tag

/-
Escaped text stands for the text. A character is written as itself or as a reference that names it,
so the tokens of escaped text spell it, and escaped attribute values are unescaped to what they were.
-/

namespace Upnp.Markup

open Upnp.Text Upnp.Xml

/-! ## References -/

/-- The character that a reference stands for. -/
def referenced? : List Char → Option Char
  | '#' :: number => charOfNumber? number
  | name => predefined? name

/-- How a character may be written. -/
inductive Escape (c : Char) : List Char → Prop
  | plain (h : c ≠ '<' ∧ c ≠ '&') : Escape c [c]
  | reference (name : List Char) (hn : ∀ d ∈ name, d ≠ ';' ∧ d ≠ '&' ∧ d ≠ '<') (hr : referenced? name = some c) :
    Escape c ('&' :: (name ++ [';']))

theorem plainName_of_all {name : List Char} (h : (name.all fun d => d != ';' && d != '&' && d != '<') = true) :
    ∀ d ∈ name, d ≠ ';' ∧ d ≠ '&' ∧ d ≠ '<' := by
  intro d hd
  have hall := List.all_eq_true.1 h d hd
  rw [Bool.and_eq_true, Bool.and_eq_true, bne_iff_ne, bne_iff_ne, bne_iff_ne] at hall
  exact ⟨hall.1.1, hall.1.2, hall.2⟩

theorem escapeTextChar_escape (c : Char) : Escape c (escapeTextChar c) := by
  unfold escapeTextChar
  split
  · exact .reference "lt".toList (plainName_of_all (by decide)) (by decide)
  · exact .reference "gt".toList (plainName_of_all (by decide)) (by decide)
  · exact .reference "amp".toList (plainName_of_all (by decide)) (by decide)
  · rename_i hlt _ hamp
    exact .plain ⟨hlt, hamp⟩

theorem escapeValueChar_escape (c : Char) : Escape c (escapeValueChar c) := by
  unfold escapeValueChar
  split
  · exact .reference "quot".toList (plainName_of_all (by decide)) (by decide)
  · exact .reference "apos".toList (plainName_of_all (by decide)) (by decide)
  · exact .reference "#xA".toList (plainName_of_all (by decide)) (by decide)
  · exact .reference "#xD".toList (plainName_of_all (by decide)) (by decide)
  · exact escapeTextChar_escape c

/-- A character that is written as itself can stand in text. -/
theorem Escape.isTextChar {c : Char} {out : List Char} (h : Escape c out) (ho : out = [c]) : isTextChar c = true := by
  cases h with
  | plain h => exact isTextChar_iff.2 h
  | reference name hn hr =>
    rw [List.cons.injEq, List.append_eq_nil_iff] at ho
    exact absurd ho.2.2 (List.cons_ne_nil _ _)

/-- Any other is written behind an ampersand. -/
theorem Escape.head {c : Char} {out : List Char} (h : Escape c out) (ho : out ≠ [c]) : out.head? = some '&' := by
  cases h with
  | plain h => exact absurd rfl ho
  | reference name hn hr => rfl

theorem escapeText_cons (c : Char) (v : List Char) : escapeText (c :: v) = escapeTextChar c ++ escapeText v :=
  List.flatMap_cons

theorem escapeText_append (a v : List Char) : escapeText (a ++ v) = escapeText a ++ escapeText v :=
  List.flatMap_append

theorem escapeText_of_plain {a : List Char} (h : ∀ c ∈ a, escapeTextChar c = [c]) : escapeText a = a := by
  induction a with
  | nil => rfl
  | cons c a ih =>
    rw [escapeText_cons, h c List.mem_cons_self, ih fun d hd => h d (List.mem_cons_of_mem c hd)]
    rfl

/-! ## Tokens that spell a text -/

/-- The tokens are texts and references that make up a text. -/
inductive Spells : List Token → List Char → Prop
  | nil : Spells [] []
  | text {ts : List Token} {v : List Char} (cs : List Char) (h : Spells ts v) : Spells (.text cs :: ts) (cs ++ v)
  | reference {name : List Char} {c : Char} {ts : List Token} {v : List Char} (hr : referenced? name = some c)
    (h : Spells ts v) : Spells (.reference name :: ts) (c :: v)

/-- A text run ends at what follows. -/
def EndsText (rest : List Char) : Prop :=
  ∀ c, rest.head? = some c → isTextChar c = false

theorem endsText_nil : EndsText [] :=
  fun _ h => by cases h

theorem endsText_markup (r : List Char) : EndsText ('<' :: r) := by
  intro c h
  cases h
  decide

theorem lexed_text {a rest : List Char} (ha : a ≠ []) (ht : ∀ c ∈ a, isTextChar c = true) (hr : EndsText rest) :
    Lexed a rest [⟨.text a, a⟩] := by
  refine Lexed.single ha ?_
  obtain ⟨h1, h2⟩ := takeWhile_append_of_head ht hr
  unfold readToken?
  split
  · rename_i heq
    obtain ⟨c, cs, rfl⟩ := List.exists_cons_of_ne_nil ha
    cases heq
    exact absurd (ht '<' List.mem_cons_self) (by decide)
  · rename_i heq
    obtain ⟨c, cs, rfl⟩ := List.exists_cons_of_ne_nil ha
    cases heq
    exact absurd (ht '&' List.mem_cons_self) (by decide)
  · rw [h1, h2]

theorem lexed_reference {name : List Char} (hn : ∀ d ∈ name, d ≠ ';' ∧ d ≠ '&' ∧ d ≠ '<') (rest : List Char) :
    Lexed ('&' :: (name ++ [';'])) rest [⟨.reference name, '&' :: (name ++ [';'])⟩] := by
  refine Lexed.single (List.cons_ne_nil _ _) ?_
  show readReference? (name ++ [';'] ++ rest) = _
  have h := takeWhile_append_of_head (p := fun c => !(c == ';' || c == '&' || c == '<')) (a := name)
    (b := ';' :: rest) (fun d hd => by simp [hn d hd]) (fun c hc => by cases hc; rfl)
  rw [List.append_assoc, List.singleton_append]
  unfold readReference?
  simp only [h.1, h.2]

/-- Behind a run of characters written as themselves comes a reference or what follows the text. -/
theorem endsText_escapeText {v rest : List Char} (hv : ∀ c, v.head? = some c → escapeTextChar c ≠ [c])
    (hr : EndsText rest) : EndsText (escapeText v ++ rest) := by
  intro d hd
  cases v with
  | nil => exact hr d hd
  | cons c v =>
    have hhead := (escapeTextChar_escape c).head (hv c rfl)
    rw [escapeText_cons, List.append_assoc, List.head?_append, hhead] at hd
    cases hd
    decide

/-- Escaped text is lexed as tokens that spell the text. -/
theorem lexed_escapeText_spells (v : List Char) : ∃ ls, (∀ rest, EndsText rest → Lexed (escapeText v) rest ls) ∧
    Spells (ls.map Lexeme.token) v := by
  -- a run of characters that stand for themselves becomes one text, every other a reference
  induction v using runs_induction (fun c => decide (escapeTextChar c = [c])) with
  | nil => exact ⟨[], fun rest _ => Lexed.nil rest, .nil⟩
  | single c v hc ih =>
    obtain ⟨ls, hl, hs⟩ := ih
    have hesc := escapeTextChar_escape c
    generalize hout : escapeTextChar c = out at hesc
    cases hesc with
    | plain h => simp [hout] at hc
    | reference name hn hr =>
      refine ⟨⟨.reference name, '&' :: (name ++ [';'])⟩ :: ls, fun rest h => ?_, .reference hr hs⟩
      rw [escapeText_cons, hout]
      exact (lexed_reference hn _).append (hl rest h)
  | run a v ha hp hv ih =>
    obtain ⟨ls, hl, hs⟩ := ih
    have hplain : ∀ c ∈ a, escapeTextChar c = [c] := fun c hc => of_decide_eq_true (hp c hc)
    refine ⟨⟨.text a, a⟩ :: ls, fun rest h => ?_, .text a hs⟩
    rw [escapeText_append, escapeText_of_plain hplain]
    refine (lexed_text ha (fun c hc => (escapeTextChar_escape c).isTextChar (hplain c hc)) ?_).append (hl rest h)
    exact endsText_escapeText (fun c hc => of_decide_eq_false (hv c hc)) h

theorem lexed_escapeText {v rest : List Char} (hr : EndsText rest) :
    Lexed (escapeText v) rest (lex (escapeText v)) := by
  obtain ⟨ls, hl, -⟩ := lexed_escapeText_spells v
  rw [(hl [] endsText_nil).lex_self]
  exact hl rest hr

theorem spells_lex_escapeText (v : List Char) : Spells ((lex (escapeText v)).map Lexeme.token) v := by
  obtain ⟨ls, hl, hs⟩ := lexed_escapeText_spells v
  rwa [(hl [] endsText_nil).lex_self]

/-! ## Attribute values -/

theorem unescape?_nil (fuel : Nat) : unescape? fuel [] = some [] := by
  cases fuel <;> rfl

theorem referenced?_bind {α : Type} (name : List Char) (k : Char → Option α) :
    (match name with
    | '#' :: number => (charOfNumber? number).bind k
    | name => (predefined? name).bind k) = (referenced? name).bind k := by
  unfold referenced?
  by_cases hs : ∃ number, name = '#' :: number
  · obtain ⟨number, rfl⟩ := hs
    rfl
  · simp [not_exists.1 hs]

theorem unescape?_succ (fuel : Nat) (cs : List Char) : unescape? (fuel + 1) cs =
    match cs.dropWhile (· != '&') with
    | [] => some (cs.takeWhile (· != '&'))
    | _ :: r =>
      match r.dropWhile (fun c => !(c == ';' || c == '&')) with
      | ';' :: rest =>
        (referenced? (r.takeWhile fun c => !(c == ';' || c == '&'))).bind fun c =>
          (unescape? fuel rest).bind fun more => some (cs.takeWhile (· != '&') ++ c :: more)
      | _ => none := by
  cases cs with
  | nil => rfl
  | cons c cs =>
    rw [unescape?]
    · generalize (c :: cs).dropWhile (· != '&') = after
      cases after with
      | nil => rfl
      | cons d r =>
        simp only
        generalize r.dropWhile (fun c => !(c == ';' || c == '&')) = tail
        by_cases hs : ∃ rest, tail = ';' :: rest
        · obtain ⟨rest, rfl⟩ := hs
          exact referenced?_bind _ _
        · simp [not_exists.1 hs]
    · exact List.cons_ne_nil c cs

theorem unescape?_plain (fuel : Nat) {c : Char} (h : c ≠ '&') (w : List Char) :
    unescape? (fuel + 1) (c :: w) = (unescape? (fuel + 1) w).map (c :: ·) := by
  have hc : (c != '&') = true := bne_iff_ne.2 h
  rw [unescape?_succ, unescape?_succ, List.takeWhile_cons, List.dropWhile_cons, hc, if_pos rfl, if_pos rfl]
  split
  · rfl
  · split
    · cases referenced? _ with
      | none => rfl
      | some d =>
        rw [Option.bind_some, Option.bind_some]
        cases unescape? fuel _ <;> rfl
    · rfl

theorem unescape?_reference (fuel : Nat) {name : List Char} {c : Char} (hn : ∀ d ∈ name, d ≠ ';' ∧ d ≠ '&' ∧ d ≠ '<')
    (hr : referenced? name = some c) (w : List Char) :
    unescape? (fuel + 1) ('&' :: (name ++ [';']) ++ w) = (unescape? fuel w).map (c :: ·) := by
  have h := takeWhile_append_of_head (p := fun c => !(c == ';' || c == '&')) (a := name)
    (b := ';' :: w) (fun d hd => by simp [hn d hd]) (fun c hc => by cases hc; rfl)
  have happ : name ++ [';'] ++ w = name ++ ';' :: w := by rw [List.append_assoc, List.singleton_append]
  rw [unescape?_succ, List.cons_append, happ]
  have hamp : ('&' != '&') = false := rfl
  simp only [List.dropWhile_cons, List.takeWhile_cons, hamp, Bool.false_eq_true, if_false, h.1, h.2, hr,
    Option.bind_some, List.nil_append]
  cases unescape? fuel w <;> rfl

theorem escapeValue_cons (c : Char) (v : List Char) : escapeValue (c :: v) = escapeValueChar c ++ escapeValue v :=
  List.flatMap_cons

/-- A text and a way of writing it, each character as itself or as a reference. -/
inductive Escapes : List Char → List Char → Prop
  | nil : Escapes [] []
  | cons {c : Char} {out v cs : List Char} (hc : Escape c out) (h : Escapes v cs) : Escapes (c :: v) (out ++ cs)

/-- Unescaping undoes every way of escaping. -/
theorem Escapes.unescape? {v cs : List Char} (h : Escapes v cs) {fuel : Nat} (hf : cs.length < fuel) :
    unescape? fuel cs = some v := by
  induction h generalizing fuel with
  | nil => exact unescape?_nil fuel
  | cons hc _ ih =>
    obtain ⟨fuel, rfl⟩ : ∃ f, fuel = f + 1 := ⟨fuel - 1, by omega⟩
    rw [List.length_append] at hf
    cases hc with
    | plain hc =>
      rw [List.singleton_append, unescape?_plain fuel hc.2, ih (by omega)]
      rfl
    | reference name hn hr =>
      rw [List.length_cons] at hf
      rw [unescape?_reference fuel hn hr, ih (by omega)]
      rfl

theorem escapes_escapeValue (v : List Char) : Escapes v (escapeValue v) := by
  induction v with
  | nil => exact .nil
  | cons c v ih =>
    rw [escapeValue_cons]
    exact .cons (escapeValueChar_escape c) ih

theorem Escapes.text? {v cs : List Char} (h : Escapes v cs) (name : List Char) :
    Attribute.text? ⟨name, cs⟩ = some (String.ofList v) := by
  unfold Attribute.text?
  rw [h.unescape? (Nat.lt_succ_self _), Option.map_some]

theorem attribute_text? {name : List Char} (v : String) :
    (Attribute.text? ⟨name, escapeValue v.toList⟩) = some v := by
  rw [(escapes_escapeValue v.toList).text?, String.ofList_toList]

/-! ## Reading attributes -/

theorem not_isSpace_quote {q : Char} (hq : q = '"' ∨ q = '\'') : isSpace q = false := by
  rcases hq with rfl | rfl <;> rfl

theorem readValue?_attribute {before after : List Char} {quote : Char} {value : List Char}
    (hb : ∀ c ∈ before, isSpace c = true) (ha : ∀ c ∈ after, isSpace c = true) (hq : quote = '"' ∨ quote = '\'')
    (hv : quote ∉ value) (rest : List Char) :
    readValue? (before ++ '=' :: (after ++ quote :: (value ++ quote :: rest))) = some (value, rest) := by
  have hequals := (takeWhile_append_of_head (p := isSpace) (b := '=' :: (after ++ quote :: (value ++ quote :: rest)))
    hb fun c hc => by cases hc; rfl).2
  have hquote := (takeWhile_append_of_head (p := isSpace) (b := quote :: (value ++ quote :: rest)) ha fun c hc => by
    cases hc
    exact not_isSpace_quote hq).2
  have hvalue := takeWhile_append_of_head (p := (· != quote)) (a := value) (b := quote :: rest)
    (fun c hc => bne_iff_ne.2 fun he => hv (he ▸ hc)) fun c hc => by
      cases hc
      exact bne_self_eq_false quote
  unfold readValue?
  simp only [hequals, hquote, hvalue.1, hvalue.2]
  rw [if_pos hq]

/-- An attribute is read off the front of what follows. -/
theorem readAttributes_attributeChars {gap name before after : List Char} {quote : Char} {value : List Char}
    (hg : ∀ c ∈ gap, isSpace c = true) (hn : isName name = true) (hb : ∀ c ∈ before, isSpace c = true)
    (ha : ∀ c ∈ after, isSpace c = true) (hq : quote = '"' ∨ quote = '\'') (hv : quote ∉ value) (fuel : Nat)
    {seen : List (List Char)} (hs : name ∉ seen) (rest : List Char) :
    readAttributes (fuel + 1) seen (attributeChars gap name before after quote value ++ rest) =
      .ok ⟨name, value⟩ :: readAttributes fuel (name :: seen) rest := by
  obtain ⟨c, cs, rfl⟩ := List.exists_cons_of_ne_nil (ne_nil_of_isName hn)
  have hdrop := (takeWhile_append_of_head (p := isSpace)
    (b := c :: cs ++ (before ++ '=' :: (after ++ quote :: (value ++ quote :: rest)))) hg (isSpace_head hn)).2
  -- the name ends at white space or at the equals sign, whichever comes first
  have hname : ∀ d ∈ cs, (!(d == '=' || isSpace d)) = true := by
    intro d hd
    have hm : d ∈ c :: cs := List.mem_cons_of_mem c hd
    have heq : d ≠ '=' := fun he => not_mem_of_isName hn (by decide) (he ▸ hm)
    rw [beq_eq_false_iff_ne.2 heq, isSpace_of_mem_name hn d hm]
    rfl
  have hend : ∀ d, (before ++ '=' :: (after ++ quote :: (value ++ quote :: rest))).head? = some d →
      (!(d == '=' || isSpace d)) = false := by
    intro d hd
    cases before with
    | nil =>
      cases hd
      rfl
    | cons b before =>
      cases hd
      rw [hb d List.mem_cons_self, Bool.or_true]
      rfl
  have hspan := takeWhile_append_of_head (p := fun d => !(d == '=' || isSpace d)) hname hend
  have hseen : seen.contains (c :: cs) = false := by
    rw [List.contains_eq_mem]
    exact decide_eq_false hs
  rw [attributeChars_append, readAttributes.eq_def, hdrop, List.cons_append]
  simp only [hspan.1, hspan.2, readValue?_attribute hb ha hq hv rest, hseen, Bool.false_eq_true, if_false]

theorem readAttributes_writeAttribute {name : String} (hn : isName name.toList = true) (value : String) (fuel : Nat)
    {seen : List (List Char)} (hs : name.toList ∉ seen) (rest : List Char) :
    readAttributes (fuel + 1) seen (writeAttribute name value ++ rest) =
      .ok ⟨name.toList, escapeValue value.toList⟩ :: readAttributes fuel (name.toList :: seen) rest := by
  have hnil : ∀ c ∈ ([] : List Char), isSpace c = true := fun c hc => absurd hc List.not_mem_nil
  rw [writeAttribute_eq]
  exact readAttributes_attributeChars isSpace_of_mem_single hn hnil hnil (.inl rfl)
    (quote_not_mem_escapeValue value.toList) fuel hs rest

/-- The namespace that the only attribute of a tag declares, blanks behind it or not. -/
theorem namespaceOf_written {name : String} (hn : isName name.toList = true) (value : String)
    (hns : Attribute.isNamespace ⟨name.toList, escapeValue value.toList⟩ = true) (rest : List Char) :
    namespaceOf (writeAttributes [(name, value)] ++ rest) = .ok (some value) := by
  have hwrite : writeAttributes [(name, value)] = writeAttribute name value := List.append_nil _
  unfold namespaceOf attributesOf
  rw [hwrite]
  obtain ⟨fuel, hf⟩ : ∃ fuel, (writeAttribute name value ++ rest).length = fuel + 1 :=
    ⟨_, rfl⟩
  rw [hf, readAttributes_writeAttribute hn value fuel List.not_mem_nil, firstNamespace, if_pos hns, attribute_text?]

end Upnp.Markup
