import Upnp.Markup.Token
import Upnp.Proofs.Text.Split

/-
Lexing part by part. Each token is read from a part at the front of the input, which is its source,
so the bound on the number of lexemes is never met. A part of the input is lexed by itself as long
as nothing behind it changes where its last token ends.
-/

namespace Upnp.Markup

open Upnp.Text Upnp.Xml

/-! ## What a token is read from -/

theorem spanTag_some : ∀ {q : Option Char} {cs content rest : List Char}, spanTag q cs = some (content, rest) →
    cs = content ++ '>' :: rest
  | none, c :: cs, content, rest, h => by
    rw [spanTag] at h
    split at h
    · rename_i hc
      cases h
      rw [hc, List.nil_append]
    · obtain ⟨⟨a, b⟩, hs, he⟩ := Option.map_eq_some_iff.1 h
      cases he
      rw [spanTag_some hs, List.cons_append]
  | some q, c :: cs, content, rest, h => by
    rw [spanTag] at h
    obtain ⟨⟨a, b⟩, hs, he⟩ := Option.map_eq_some_iff.1 h
    cases he
    rw [spanTag_some hs, List.cons_append]
  | none, [], _, _, h => by cases h
  | some _, [], _, _, h => by cases h

theorem spanDoctype_some : ∀ {depth : Nat} {cs content rest : List Char},
    spanDoctype depth cs = some (content, rest) → cs = content ++ '>' :: rest
  | depth, c :: cs, content, rest, h => by
    rw [spanDoctype] at h
    split at h
    · rename_i hc
      cases h
      rw [hc.1, List.nil_append]
    · obtain ⟨⟨a, b⟩, hs, he⟩ := Option.map_eq_some_iff.1 h
      cases he
      rw [spanDoctype_some hs, List.cons_append]
  | _, [], _, _, h => by cases h

theorem suffix_of_splitOnce? {sep cs a b : List Char} (h : splitOnce? sep cs = some (a, b)) : b <:+ cs :=
  ⟨a ++ sep, by rw [splitOnce?_some h, List.append_assoc]⟩

theorem suffix_of_readDeclaration? {cs rest : List Char} {t : Token} (h : readDeclaration? cs = some (t, rest)) :
    rest <:+ cs := by
  unfold readDeclaration? at h
  split at h
  · rename_i r
    obtain ⟨⟨a, b⟩, hs, he⟩ := Option.map_eq_some_iff.1 h
    cases he
    exact (suffix_of_splitOnce? hs).trans (List.suffix_append ['-', '-'] r)
  · split at h
    · obtain ⟨⟨a, b⟩, hs, he⟩ := Option.map_eq_some_iff.1 h
      cases he
      exact (suffix_of_splitOnce? hs).trans (List.drop_suffix 7 _)
    · cases h
  · split at h
    · obtain ⟨⟨a, b⟩, hs, he⟩ := Option.bind_eq_some_iff.1 h
      simp only at he
      split at he
      · cases he
      · cases he
        refine List.IsSuffix.trans ?_ (List.drop_suffix 7 _)
        rw [spanDoctype_some hs]
        exact (List.suffix_cons '>' rest).trans (List.suffix_append a _)
    · cases h

theorem suffix_of_readMarkup? {cs rest : List Char} {t : Token} (h : readMarkup? cs = some (t, rest)) :
    rest <:+ cs := by
  unfold readMarkup? at h
  split at h
  · exact (suffix_of_readDeclaration? h).trans (List.suffix_cons '!' _)
  · split at h
    · cases h
    · rename_i hs
      cases h
      exact suffix_of_splitOnce? hs
    · cases h
  · rename_i r
    obtain ⟨⟨a, b⟩, hs, he⟩ := Option.map_eq_some_iff.1 h
    cases he
    rw [spanTag_some hs]
    exact ((List.suffix_cons '>' rest).trans (List.suffix_append a _)).trans (List.suffix_cons '/' _)
  · obtain ⟨⟨a, b⟩, hs, he⟩ := Option.map_eq_some_iff.1 h
    cases he
    rw [spanTag_some hs]
    exact (List.suffix_cons '>' rest).trans (List.suffix_append a _)

theorem suffix_of_readReference? {cs rest : List Char} {t : Token} (h : readReference? cs = some (t, rest)) :
    rest <:+ cs := by
  unfold readReference? at h
  simp only at h
  split at h
  · rename_i hd
    cases h
    exact (List.suffix_cons ';' rest).trans (hd ▸ List.dropWhile_suffix _)
  · cases h

theorem isTextChar_iff {c : Char} : isTextChar c = true ↔ c ≠ '<' ∧ c ≠ '&' := by
  simp [isTextChar]

/-- Reading a token leaves less than there was. -/
theorem readToken?_length {c : Char} {cs rest : List Char} {t : Token}
    (h : readToken? (c :: cs) = some (t, rest)) : rest <:+ cs := by
  unfold readToken? at h
  split at h
  · rename_i heq
    cases heq
    exact suffix_of_readMarkup? h
  · rename_i heq
    cases heq
    exact suffix_of_readReference? h
  · rename_i hlt hamp
    cases h
    -- a text run takes the first character at least, as that starts neither a tag nor a reference
    have hc : isTextChar c = true :=
      isTextChar_iff.2 ⟨fun he => hlt cs (by rw [he]), fun he => hamp cs (by rw [he])⟩
    rw [List.dropWhile_cons, if_pos hc]
    exact List.dropWhile_suffix _

/-! ## Lexing without a bound -/

/-- The lexemes of a text, before the nesting of its tags is checked. -/
def lex (cs : List Char) : List Lexeme :=
  scan cs.length cs

theorem lex_nil : lex [] = [] :=
  rfl

theorem scan_cons (fuel : Nat) (c : Char) (cs : List Char) : scan (fuel + 1) (c :: cs) =
    match readToken? (c :: cs) with
    | some (token, rest) => ⟨token, (c :: cs).take ((c :: cs).length - rest.length)⟩ :: scan fuel rest
    | none => [⟨.malformed, c :: cs⟩] :=
  rfl

theorem scan_eq_scan : ∀ {f g : Nat} {cs : List Char}, cs.length ≤ f → cs.length ≤ g → scan f cs = scan g cs
  | _, _, [], _, _ => by rw [scan, scan]
  | f + 1, g + 1, c :: cs, hf, hg => by
    rw [scan_cons, scan_cons]
    split
    · rename_i hr
      -- what is left is no longer than `cs`, so both bounds cover it
      have hlen := (readToken?_length hr).length_le
      rw [List.length_cons] at hf hg
      rw [scan_eq_scan (f := f) (g := g) (by omega) (by omega)]
    · rfl

/-- One token is lexed off the part that it is read from. -/
theorem lex_append {src rest : List Char} {t : Token} (hs : src ≠ [])
    (hr : readToken? (src ++ rest) = some (t, rest)) : lex (src ++ rest) = ⟨t, src⟩ :: lex rest := by
  obtain ⟨c, cs, rfl⟩ := List.exists_cons_of_ne_nil hs
  unfold lex
  rw [List.cons_append] at hr ⊢
  rw [List.length_cons, scan_cons, hr]
  have htake : (c :: (cs ++ rest)).take ((c :: (cs ++ rest)).length - rest.length) = c :: cs := by
    have hlen : (c :: (cs ++ rest)).length - rest.length = (c :: cs).length := by
      simp only [List.length_cons, List.length_append]
      omega
    rw [hlen, ← List.cons_append, List.take_left]
  simp only [htake]
  rw [scan_eq_scan (f := (cs ++ rest).length) (g := rest.length) (by rw [List.length_append]; omega) (Nat.le_refl _)]

/-- A part of the input is lexed as these lexemes when `rest` stands behind it. -/
structure Lexed (cs rest : List Char) (ls : List Lexeme) : Prop where
  lex : lex (cs ++ rest) = ls ++ lex rest
  sources : ls.flatMap Lexeme.source = cs

theorem Lexed.nil (rest : List Char) : Lexed [] rest [] :=
  ⟨rfl, rfl⟩

theorem Lexed.append {as bs rest : List Char} {ls ms : List Lexeme} (ha : Lexed as (bs ++ rest) ls)
    (hb : Lexed bs rest ms) : Lexed (as ++ bs) rest (ls ++ ms) := by
  refine ⟨?_, ?_⟩
  · rw [List.append_assoc, ha.lex, hb.lex, List.append_assoc]
  · rw [List.flatMap_append, ha.sources, hb.sources]

theorem Lexed.single {src rest : List Char} {t : Token} (hs : src ≠ [])
    (hr : readToken? (src ++ rest) = some (t, rest)) : Lexed src rest [⟨t, src⟩] :=
  ⟨lex_append hs hr, List.append_nil src⟩

theorem Lexed.lex_self {cs : List Char} {ls : List Lexeme} (h : Lexed cs [] ls) : Markup.lex cs = ls := by
  have hl := h.lex
  rwa [List.append_nil, lex_nil, List.append_nil] at hl

/-! ## Passages with an end of their own -/

theorem unbordered_cdataEnd : Unbordered "]]>".toList := by
  unfold Unbordered
  decide

theorem unbordered_commentEnd : Unbordered "-->".toList := by
  unfold Unbordered
  decide

theorem unbordered_instructionEnd : Unbordered "?>".toList := by
  unfold Unbordered
  decide

theorem lexed_cdata {content : List Char} (h : ¬ "]]>".toList <:+: content) (rest : List Char) :
    Lexed ("<![CDATA[".toList ++ (content ++ "]]>".toList)) rest
      [⟨.cdata content, "<![CDATA[".toList ++ (content ++ "]]>".toList)⟩] := by
  have hcut := splitOnce?_append unbordered_cdataEnd (by decide) h rest
  refine Lexed.single (List.cons_ne_nil _ _) ?_
  rw [List.append_assoc, List.append_assoc]
  generalize content ++ ("]]>".toList ++ rest) = cs at hcut
  have hword : startsWithWord "[cdata[" ("[CDATA[".toList ++ cs) = true := rfl
  show (if startsWithWord "[cdata[" ("[CDATA[".toList ++ cs) = true then (splitOnce? "]]>".toList cs).map _ else none) = _
  rw [if_pos hword, hcut]
  rfl

theorem lexed_comment {content : List Char} (h : ¬ "-->".toList <:+: content) (rest : List Char) :
    Lexed ("<!--".toList ++ (content ++ "-->".toList)) rest
      [⟨.aside, "<!--".toList ++ (content ++ "-->".toList)⟩] := by
  have hcut := splitOnce?_append unbordered_commentEnd (by decide) h rest
  refine Lexed.single (List.cons_ne_nil _ _) ?_
  rw [List.append_assoc, List.append_assoc]
  show (splitOnce? "-->".toList (content ++ ("-->".toList ++ rest))).map _ = _
  rw [hcut]
  rfl

/-- The mark that starts an instruction may not end it. -/
theorem lexed_instruction {content : List Char} (h : ¬ "?>".toList <:+: '?' :: content) (rest : List Char) :
    Lexed ("<?".toList ++ (content ++ "?>".toList)) rest [⟨.aside, "<?".toList ++ (content ++ "?>".toList)⟩] := by
  have hcut := splitOnce?_append unbordered_instructionEnd (by decide) h rest
  refine Lexed.single (List.cons_ne_nil _ _) ?_
  rw [List.append_assoc, List.append_assoc]
  show readMarkup? ('?' :: (content ++ ("?>".toList ++ rest))) = _
  rw [List.cons_append] at hcut
  unfold readMarkup?
  simp only [hcut]

end Upnp.Markup
