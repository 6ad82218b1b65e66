import Upnp.Xml.Writer
import Upnp.Proofs.Markup.Lexeme
import Upnp.Proofs.Text.Run

/-
Written tags are lexed as what they were written for. Names hold no character that means something
in a tag, and quotes hide what stands in an attribute's value.
-/

namespace Upnp.Markup

open Upnp.Text Upnp.Xml

/-! ## Names -/

/-- A name of an element or attribute. -/
def isName : List Char → Bool
  | [] => false
  | c :: cs => isNameStart c && cs.all isNameChar

theorem isNameChar_of_isNameStart {c : Char} (h : isNameStart c = true) : isNameChar c = true := by
  unfold isNameChar
  simp only [h, Bool.true_or]

theorem ne_nil_of_isName {cs : List Char} (h : isName cs = true) : cs ≠ [] := by
  rintro rfl
  cases h

theorem isNameChar_of_mem {cs : List Char} (h : isName cs = true) : ∀ c ∈ cs, isNameChar c = true := by
  cases cs with
  | nil => cases h
  | cons d ds =>
    rw [isName, Bool.and_eq_true, List.all_eq_true] at h
    intro c hc
    rcases List.mem_cons.1 hc with rfl | hc
    · exact isNameChar_of_isNameStart h.1
    · exact h.2 c hc

/-- A character that is none of names is in no name. -/
theorem not_mem_of_isName {cs : List Char} (h : isName cs = true) {d : Char} (hd : isNameChar d = false) : d ∉ cs :=
  fun hm => by rw [isNameChar_of_mem h d hm] at hd; cases hd

theorem isName_append {cs ds : List Char} (h : isName cs = true) (hd : ∀ c ∈ ds, isNameChar c = true) :
    isName (cs ++ ds) = true := by
  cases cs with
  | nil => cases h
  | cons c cs =>
    rw [isName, Bool.and_eq_true, List.all_eq_true] at h
    rw [List.cons_append, isName, Bool.and_eq_true, List.all_eq_true]
    refine ⟨h.1, fun x hx => ?_⟩
    rcases List.mem_append.1 hx with hx | hx
    · exact h.2 x hx
    · exact hd x hx

theorem isSpace_of_mem_name {cs : List Char} (h : isName cs = true) : ∀ c ∈ cs, isSpace c = false := by
  intro c hc
  have hs : ∀ d : Char, isNameChar d = false → (c == d) = false := fun d hd =>
    beq_eq_false_iff_ne.2 fun he => not_mem_of_isName h hd (he ▸ hc)
  unfold isSpace
  rw [hs ' ' (by decide), hs '\t' (by decide), hs '\n' (by decide), hs '\r' (by decide)]
  rfl

theorem isSpace_head {cs ds : List Char} (h : isName cs = true) :
    ∀ c, (cs ++ ds).head? = some c → isSpace c = false := by
  intro c hc
  cases cs with
  | nil => cases h
  | cons d cs =>
    cases hc
    exact isSpace_of_mem_name h c List.mem_cons_self

theorem localName_of_not_mem {cs : List Char} (h : ':' ∉ cs) : localName cs = cs := by
  have hno : ¬ [':'] <:+: cs := fun hi => h (hi.subset (List.mem_singleton_self ':'))
  unfold localName
  rw [splitOnce?_eq_none.2 hno]

theorem localName_append {q : List Char} (h : ':' ∉ q) (base : List Char) : localName (q ++ ':' :: base) = base := by
  have hno : ¬ [':'] <:+: q := fun hi => h (hi.subset (List.mem_singleton_self ':'))
  have hcut := splitOnce?_append (unbordered_singleton ':') (List.cons_ne_nil _ _) hno base
  unfold localName
  rw [show q ++ ':' :: base = q ++ ([':'] ++ base) from rfl, hcut]

/-! ## Attributes -/

/-- The names of attributes are names. -/
def ProperAttributes (attributes : List (String × String)) : Prop :=
  ∀ a ∈ attributes, isName a.1.toList = true

theorem quote_not_mem_escapeValue (v : List Char) : '"' ∉ escapeValue v := by
  intro h
  obtain ⟨c, -, hc⟩ := List.mem_flatMap.1 h
  unfold escapeValueChar at hc
  split at hc
  · exact absurd hc (by decide)
  · exact absurd hc (by decide)
  · exact absurd hc (by decide)
  · exact absurd hc (by decide)
  · rename_i hq _ _ _
    unfold escapeTextChar at hc
    split at hc
    · exact absurd hc (by decide)
    · exact absurd hc (by decide)
    · exact absurd hc (by decide)
    · exact hq (List.mem_singleton.1 hc).symm

theorem spanTag_none_cons (c : Char) (cs : List Char) : spanTag none (c :: cs) =
    if c = '>' then some ([], cs)
    else (spanTag (if c = '"' ∨ c = '\'' then some c else none) cs).map
      fun (content, rest) => (c :: content, rest) :=
  rfl

theorem spanTag_some_cons (q c : Char) (cs : List Char) : spanTag (some q) (c :: cs) =
    (spanTag (if c = q then none else some q) cs).map fun (content, rest) => (c :: content, rest) :=
  rfl

theorem spanTag_plain {a r content rest : List Char} (ha : ∀ c ∈ a, c ≠ '>' ∧ c ≠ '"' ∧ c ≠ '\'')
    (h : spanTag none r = some (content, rest)) : spanTag none (a ++ r) = some (a ++ content, rest) := by
  induction a with
  | nil => exact h
  | cons c a ih =>
    obtain ⟨h1, h2, h3⟩ := ha c List.mem_cons_self
    rw [List.cons_append, spanTag_none_cons, if_neg h1, if_neg (not_or.2 ⟨h2, h3⟩),
      ih fun d hd => ha d (List.mem_cons_of_mem c hd)]
    rfl

theorem spanTag_quoted {q : Char} {v r content rest : List Char} (hv : q ∉ v)
    (h : spanTag none r = some (content, rest)) :
    spanTag (some q) (v ++ q :: r) = some (v ++ q :: content, rest) := by
  induction v with
  | nil =>
    rw [List.nil_append, spanTag_some_cons, if_pos rfl, h]
    rfl
  | cons c v ih =>
    rw [List.mem_cons, not_or] at hv
    rw [List.cons_append, spanTag_some_cons, if_neg (fun he => hv.1 he.symm), ih hv.2]
    rfl

theorem plain_of_isName {cs : List Char} (h : isName cs = true) : ∀ c ∈ cs, c ≠ '>' ∧ c ≠ '"' ∧ c ≠ '\'' := by
  intro c hc
  refine ⟨?_, ?_, ?_⟩ <;> rintro rfl <;> exact not_mem_of_isName h (by decide) hc

theorem plain_of_isSpace {c : Char} (h : isSpace c = true) : c ≠ '>' ∧ c ≠ '"' ∧ c ≠ '\'' := by
  refine ⟨?_, ?_, ?_⟩ <;> rintro rfl <;> exact absurd h (by decide)

/-- An attribute with white space in front of its name and around its equals sign. -/
def attributeChars (gap name before after : List Char) (quote : Char) (value : List Char) : List Char :=
  gap ++ (name ++ (before ++ '=' :: (after ++ quote :: (value ++ [quote]))))

theorem attributeChars_append (gap name before after : List Char) (quote : Char) (value r : List Char) :
    attributeChars gap name before after quote value ++ r =
      gap ++ (name ++ (before ++ '=' :: (after ++ quote :: (value ++ quote :: r)))) := by
  simp [attributeChars]

theorem spanTag_attributeChars {gap name before after : List Char} {quote : Char} {value : List Char}
    (hg : ∀ c ∈ gap, isSpace c = true) (hn : isName name = true) (hb : ∀ c ∈ before, isSpace c = true)
    (ha : ∀ c ∈ after, isSpace c = true) (hq : quote = '"' ∨ quote = '\'') (hv : quote ∉ value)
    {r content rest : List Char} (h : spanTag none r = some (content, rest)) :
    spanTag none (attributeChars gap name before after quote value ++ r) =
      some (attributeChars gap name before after quote value ++ content, rest) := by
  have hend : quote ≠ '>' := by rcases hq with rfl | rfl <;> decide
  have hquoted : spanTag none (quote :: (value ++ quote :: r)) = some (quote :: (value ++ quote :: content), rest) := by
    rw [spanTag_none_cons, if_neg hend, if_pos hq, spanTag_quoted hv h]
    rfl
  have hequals := spanTag_plain (fun c hc => plain_of_isSpace (ha c hc)) hquoted
  have hvalue : spanTag none ('=' :: (after ++ quote :: (value ++ quote :: r))) =
      some ('=' :: (after ++ quote :: (value ++ quote :: content)), rest) := by
    rw [spanTag_none_cons, if_neg (by decide), if_neg (by decide), hequals]
    rfl
  rw [attributeChars_append, attributeChars_append]
  exact spanTag_plain (fun c hc => plain_of_isSpace (hg c hc)) (spanTag_plain (plain_of_isName hn)
    (spanTag_plain (fun c hc => plain_of_isSpace (hb c hc)) hvalue))

theorem writeAttribute_eq (name value : String) :
    writeAttribute name value = attributeChars [' '] name.toList [] [] '"' (escapeValue value.toList) := by
  simp [writeAttribute, attributeChars]

theorem isSpace_of_mem_single : ∀ c ∈ [' '], isSpace c = true := by
  intro c hc
  rw [List.mem_singleton.1 hc]
  rfl

/-! ## What stands behind the name -/

/-- The text can stand in a tag behind the name: no bracket in it ends the tag, a blank sets it off from
the name, and it does not end in the slash of an empty element. -/
structure BehindName (a : List Char) : Prop where
  span {r content rest : List Char} (h : spanTag none r = some (content, rest)) :
    spanTag none (a ++ r) = some (a ++ content, rest)
  head : ∀ c, a.head? = some c → isSpace c = true
  last : a.getLast? ≠ some '/'

theorem getLast?_append_ne {a b : List Char} {c : Char} (ha : a.getLast? ≠ some c) (hb : b.getLast? ≠ some c) :
    (a ++ b).getLast? ≠ some c := by
  rw [List.getLast?_append]
  cases hl : b.getLast? with
  | none => rwa [Option.none_or]
  | some d => rwa [Option.some_or, ← hl]

namespace BehindName

theorem space {a : List Char} (h : ∀ c ∈ a, isSpace c = true) : BehindName a where
  span hr := spanTag_plain (fun c hc => plain_of_isSpace (h c hc)) hr
  head c hc := h c (List.mem_of_head? hc)
  last hl := absurd (h '/' (List.mem_of_getLast? hl)) (by decide)

theorem nil : BehindName [] :=
  space fun _ hc => absurd hc List.not_mem_nil

/-- An attribute can stand in front of what can stand behind the name. -/
theorem cons {gap name before after : List Char} {quote : Char} {value : List Char} (hne : gap ≠ [])
    (hg : ∀ c ∈ gap, isSpace c = true) (hn : isName name = true) (hb : ∀ c ∈ before, isSpace c = true)
    (ha : ∀ c ∈ after, isSpace c = true) (hq : quote = '"' ∨ quote = '\'') (hv : quote ∉ value)
    {a : List Char} (h : BehindName a) : BehindName (attributeChars gap name before after quote value ++ a) where
  span hr := by
    rw [List.append_assoc, List.append_assoc]
    exact spanTag_attributeChars hg hn hb ha hq hv (h.span hr)
  head c hc := by
    obtain ⟨g, gap, rfl⟩ := List.exists_cons_of_ne_nil hne
    cases hc
    exact hg c List.mem_cons_self
  last := by
    refine getLast?_append_ne ?_ h.last
    have hquote : attributeChars gap name before after quote value =
        (gap ++ (name ++ (before ++ '=' :: (after ++ quote :: value)))) ++ [quote] := by
      simp [attributeChars]
    rw [hquote, List.getLast?_concat]
    rcases hq with rfl | rfl <;> decide

theorem written {attributes : List (String × String)} (ha : ProperAttributes attributes) {a : List Char}
    (h : BehindName a) : BehindName (writeAttributes attributes ++ a) := by
  have hnil : ∀ c ∈ ([] : List Char), isSpace c = true := fun c hc => absurd hc List.not_mem_nil
  induction attributes with
  | nil => exact h
  | cons p attributes ih =>
    obtain ⟨n, v⟩ := p
    have hrest := ih fun b hb => ha b (List.mem_cons_of_mem _ hb)
    have hcons : writeAttributes ((n, v) :: attributes) = writeAttribute n v ++ writeAttributes attributes := rfl
    rw [hcons, List.append_assoc, writeAttribute_eq]
    exact hrest.cons (List.cons_ne_nil _ _) isSpace_of_mem_single (ha (n, v) List.mem_cons_self) hnil hnil
      (.inl rfl) (quote_not_mem_escapeValue v.toList)

end BehindName

/-! ## Tags -/

/-- A tag that starts with a name is read up to its closing bracket. -/
theorem readToken?_tag {cs content rest : List Char} (hc : ∀ c, cs.head? = some c → isNameStart c = true)
    (hs : spanTag none cs = some (content, rest)) : readToken? ('<' :: cs) = some (tagToken content, rest) := by
  show readMarkup? cs = _
  have hmark : ∀ d r, cs = d :: r → isNameStart d = true := fun d r he => hc d (by rw [he]; rfl)
  unfold readMarkup?
  split
  · exact absurd (hmark _ _ rfl) (by decide)
  · exact absurd (hmark _ _ rfl) (by decide)
  · exact absurd (hmark _ _ rfl) (by decide)
  · rw [hs]
    rfl

theorem isNameStart_head {cs ds : List Char} (h : isName cs = true) :
    ∀ c, (cs ++ ds).head? = some c → isNameStart c = true := by
  intro c hc
  cases cs with
  | nil => cases h
  | cons d cs =>
    cases hc
    rw [isName, Bool.and_eq_true] at h
    exact h.1

section Lexed

variable {name a : List Char}

theorem splitName_append (hn : isName name = true) (ha : BehindName a) : splitName (name ++ a) = (name, a) := by
  have h := takeWhile_append_of_head (p := fun c => !isSpace c) (a := name) (b := a)
    (fun c hc => by rw [isSpace_of_mem_name hn c hc]; rfl) (fun c hc => by rw [ha.head c hc]; rfl)
  unfold splitName
  rw [h.1, h.2]

theorem tagToken_opening (hn : isName name = true) (ha : BehindName a) :
    tagToken (name ++ a) = .opening name a := by
  have hlast : (name ++ a).getLast? ≠ some '/' :=
    getLast?_append_ne (fun h => not_mem_of_isName hn (by decide) (List.mem_of_getLast? h)) ha.last
  unfold tagToken
  rw [if_neg hlast, splitName_append hn ha]

theorem tagToken_empty (hn : isName name = true) (ha : BehindName a) :
    tagToken (name ++ (a ++ ['/'])) = .empty name a := by
  unfold tagToken
  rw [← List.append_assoc, if_pos List.getLast?_concat, List.dropLast_concat, splitName_append hn ha]

theorem closingToken_append (hn : isName name = true) {space : List Char} (hs : ∀ c ∈ space, isSpace c = true) :
    closingToken (name ++ space) = .closing name := by
  unfold closingToken
  split
  · rename_i hall
    obtain ⟨c, cs, rfl⟩ := List.exists_cons_of_ne_nil (ne_nil_of_isName hn)
    have hc := List.all_eq_true.1 hall c List.mem_cons_self
    rw [isSpace_of_mem_name hn c List.mem_cons_self] at hc
    cases hc
  · rw [dropTrailing_append hs, dropTrailing_of_last fun c hc => isSpace_of_mem_name hn c (List.mem_of_getLast? hc)]

/-- The opening tag of an element. -/
theorem lexed_opening (hn : isName name = true) (ha : BehindName a) (rest : List Char) :
    Lexed ('<' :: (name ++ a) ++ ['>']) rest [⟨.opening name a, '<' :: (name ++ a) ++ ['>']⟩] := by
  have hspan := spanTag_plain (plain_of_isName hn) (ha.span (show spanTag none ('>' :: rest) = some ([], rest) from rfl))
  rw [List.append_nil] at hspan
  refine Lexed.single (List.cons_ne_nil _ _) ?_
  rw [List.append_assoc, List.cons_append, List.append_assoc, List.singleton_append,
    readToken?_tag (isNameStart_head hn) hspan, tagToken_opening hn ha]

/-- The tag of an element that holds nothing. -/
theorem lexed_empty (hn : isName name = true) (ha : BehindName a) (rest : List Char) :
    Lexed ('<' :: (name ++ a) ++ "/>".toList) rest [⟨.empty name a, '<' :: (name ++ a) ++ "/>".toList⟩] := by
  have hspan := spanTag_plain (plain_of_isName hn)
    (ha.span (show spanTag none ('/' :: '>' :: rest) = some (['/'], rest) from rfl))
  refine Lexed.single (List.cons_ne_nil _ _) ?_
  rw [List.append_assoc, List.cons_append, List.append_assoc, show "/>".toList ++ rest = '/' :: '>' :: rest from rfl,
    readToken?_tag (isNameStart_head hn) hspan, tagToken_empty hn ha]

theorem lexed_closing (hn : isName name = true) {space : List Char} (hs : ∀ c ∈ space, isSpace c = true)
    (rest : List Char) : Lexed ("</".toList ++ (name ++ space) ++ ['>']) rest
      [⟨.closing name, "</".toList ++ (name ++ space) ++ ['>']⟩] := by
  have hspan := spanTag_plain (plain_of_isName hn)
    ((BehindName.space hs).span (show spanTag none ('>' :: rest) = some ([], rest) from rfl))
  rw [List.append_nil] at hspan
  refine Lexed.single (List.cons_ne_nil _ _) ?_
  show readMarkup? ('/' :: (name ++ space ++ ['>'] ++ rest)) = _
  rw [List.append_assoc, List.append_assoc, List.singleton_append]
  show (spanTag none (name ++ (space ++ '>' :: rest))).map _ = _
  rw [hspan, Option.map_some]
  simp only [closingToken_append hn hs]

end Lexed

/-! ## Written tags -/

/-- What stands in the opening tag of an element. -/
def tagChars (name : String) (attributes : List (String × String)) : List Char :=
  name.toList ++ writeAttributes attributes

/-- The opening tag of an element. -/
def openingTag (name : String) (attributes : List (String × String)) : Lexeme :=
  ⟨.opening name.toList (writeAttributes attributes), '<' :: tagChars name attributes ++ ['>']⟩

/-- The tag of an element that holds nothing. -/
def emptyTag (name : String) (attributes : List (String × String)) : Lexeme :=
  ⟨.empty name.toList (writeAttributes attributes ++ [' ']), '<' :: tagChars name attributes ++ " />".toList⟩

def closingTag (name : String) : Lexeme :=
  ⟨.closing name.toList, "</".toList ++ name.toList ++ ['>']⟩

theorem lexed_openingTag {name : String} {attributes : List (String × String)} (hn : isName name.toList = true)
    (ha : ProperAttributes attributes) (rest : List Char) :
    Lexed (openingTag name attributes).source rest [openingTag name attributes] := by
  have hbehind := BehindName.nil.written ha
  rw [List.append_nil] at hbehind
  exact lexed_opening hn hbehind rest

theorem lexed_emptyTag {name : String} {attributes : List (String × String)} (hn : isName name.toList = true)
    (ha : ProperAttributes attributes) (rest : List Char) :
    Lexed (emptyTag name attributes).source rest [emptyTag name attributes] := by
  have h := lexed_empty hn ((BehindName.space isSpace_of_mem_single).written ha) rest
  have hsource : '<' :: (name.toList ++ (writeAttributes attributes ++ [' '])) ++ "/>".toList =
      (emptyTag name attributes).source := by
    simp [emptyTag, tagChars]
  rwa [hsource] at h

theorem lexed_closingTag {name : String} (hn : isName name.toList = true) (rest : List Char) :
    Lexed (closingTag name).source rest [closingTag name] := by
  have h := lexed_closing hn (fun c (hc : c ∈ []) => absurd hc List.not_mem_nil) rest
  rwa [List.append_nil] at h

end Upnp.Markup
