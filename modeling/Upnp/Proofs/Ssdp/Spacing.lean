import Upnp.Proofs.Ssdp.Writes

/-
Blanks behind the colon of a header line. A line is cut at its first colon when a space stands right
behind it, or when the text behind it has no colon with a space at all; then blanks in front of the value
make no difference to the packet. Without the space a colon with one in the value takes the cut, as it
must for names with colons to be read back as they are written.
-/

namespace Upnp.Ssdp

open Upnp.Text

namespace Packet

/-! ## Where a line is cut -/

/-- The text behind a colon leaves the cut to it: it starts with a space, or has no colon with a space. -/
def CutAtColon (rest : List Char) : Prop :=
  rest.head? = some ' ' ∨ ¬ [':', ' '] <:+: rest

instance (rest : List Char) : Decidable (CutAtColon rest) :=
  inferInstanceAs (Decidable (_ ∨ _))

theorem splitOnce?_colonBlank_cons (rest : List Char) : splitOnce? [':', ' '] (':' :: rest) =
    if rest.head? = some ' ' then some ([], rest.tail)
    else (splitOnce? [':', ' '] rest).map fun r => (':' :: r.1, r.2) := by
  rw [splitOnce?]
  cases rest with
  | nil => rfl
  | cons d rest =>
    by_cases hd : d = ' '
    · subst hd
      rfl
    · have hp : List.isPrefixOf [':', ' '] (':' :: d :: rest) = false := by
        simp [List.isPrefixOf, Ne.symm hd]
      rw [hp, if_neg Bool.false_ne_true, if_neg (by simpa using hd)]

theorem splitOnce?_colonBlank {name : List Char} (hc : ':' ∉ name) (rest : List Char) :
    splitOnce? [':', ' '] (name ++ ':' :: rest) =
      if rest.head? = some ' ' then some (name, rest.tail)
      else (splitOnce? [':', ' '] rest).map fun r => (name ++ ':' :: r.1, r.2) := by
  rw [splitOnce?_append_of, splitOnce?_colonBlank_cons]
  · split
    · simp
    · cases splitOnce? [':', ' '] rest <;> rfl
  · intro s hs hsuf hp
    cases s with
    | nil => exact hs rfl
    | cons c s =>
      -- the separator would start with a character of the name
      rw [List.cons_append, List.cons_prefix_cons] at hp
      exact hc (hp.1 ▸ hsuf.subset List.mem_cons_self)

/-- What a line is read as whose first colon stands behind `name`. -/
theorem headerOfLine?_colon {name : List Char} (hn : name ≠ []) (hc : ':' ∉ name) (rest : List Char) :
    headerOfLine? (name ++ ':' :: rest) =
      if rest.head? = some ' ' then some (String.ofList name, String.ofList (dropBlanks rest))
      else (splitOnce? [':', ' '] rest).elim (some (String.ofList name, String.ofList (dropBlanks rest)))
        fun r => some (String.ofList (name ++ ':' :: r.1), String.ofList (dropBlanks r.2)) := by
  have hcolon : splitOnce? [':'] (name ++ ':' :: rest) = some (name, rest) :=
    splitOnce?_append (unbordered_singleton ':') (List.cons_ne_nil _ _)
      (fun hi => hc ((List.singleton_infix_iff ':' _).1 hi)) rest
  have hname : ∀ l, (name ++ l).isEmpty = false := fun l => by
    rw [List.isEmpty_eq_false_iff]
    exact List.append_ne_nil_of_left_ne_nil hn l
  have hne : name.isEmpty = false := by simpa using hn
  unfold headerOfLine?
  rw [splitOnce?_colonBlank hc, hcolon]
  by_cases hsp : rest.head? = some ' '
  · have htail : dropBlanks rest.tail = dropBlanks rest := by
      obtain ⟨r, rfl⟩ := List.head?_eq_some_iff.1 hsp
      rfl
    rw [if_pos hsp, if_pos hsp, Option.some_or]
    simp only [hne, htail, Bool.false_eq_true, if_false]
  · rw [if_neg hsp, if_neg hsp]
    cases splitOnce? [':', ' '] rest with
    | none =>
      simp only [Option.map_none, Option.none_or, Option.elim_none, hne, Bool.false_eq_true, if_false]
    | some r =>
      simp only [Option.map_some, Option.some_or, Option.elim_some, hname, Bool.false_eq_true, if_false]

/-- A line is read as a header of the name in front of its first colon just if the cut is left to that
colon. -/
theorem headerOfLine?_colon_eq_iff {name : List Char} (hn : name ≠ []) (hc : ':' ∉ name) (rest : List Char) :
    headerOfLine? (name ++ ':' :: rest) = some (String.ofList name, String.ofList (dropBlanks rest)) ↔
      CutAtColon rest := by
  rw [headerOfLine?_colon hn hc]
  unfold CutAtColon
  by_cases hsp : rest.head? = some ' '
  · simp [hsp]
  · rw [if_neg hsp, or_iff_right hsp, ← splitOnce?_eq_none]
    cases splitOnce? [':', ' '] rest with
    | none => simp
    | some r => simp [String.ofList_inj]

/-! ## Gaps -/

/-- Spaces and tabs. -/
def IsGap (gap : List Char) : Prop :=
  ∀ c ∈ gap, c = ' ' ∨ c = '\t'

theorem IsGap.isBlank {gap : List Char} (h : IsGap gap) : ∀ c ∈ gap, isBlank c = true := by
  intro c hc
  rcases h c hc with rfl | rfl <;> decide

theorem IsGap.dropBlanks_append {gap : List Char} (h : IsGap gap) (value : List Char) :
    dropBlanks (gap ++ value) = dropBlanks value :=
  List.dropWhile_append_of_pos h.isBlank

/-- A gap has no colon, and no half of a line end. -/
theorem IsGap.infix_append_iff {gap : List Char} (h : IsGap gap) {c : Char} (hc : Text.isBlank c = false ∨ c = '\r')
    (sep value : List Char) : c :: sep <:+: gap ++ value ↔ c :: sep <:+: value := by
  induction gap with
  | nil => rfl
  | cons d gap ih =>
    have hne : ¬ c :: sep <+: d :: (gap ++ value) := fun hp => by
      have he := (List.cons_prefix_cons.1 hp).1
      subst he
      rcases hc with hc | rfl
      · exact absurd (h.isBlank c List.mem_cons_self) (by simp [hc])
      · exact absurd (h '\r' List.mem_cons_self) (by decide)
    rw [List.cons_append, List.infix_cons_iff, or_iff_right hne, ih fun e he => h e (List.mem_cons_of_mem d he)]

theorem cutAtColon_gap_iff {gap : List Char} (h : IsGap gap) (value : List Char) :
    CutAtColon (gap ++ value) ↔ (gap ++ value).head? = some ' ' ∨ ¬ [':', ' '] <:+: value := by
  unfold CutAtColon
  rw [h.infix_append_iff (.inl (by decide))]

/-! ## Header lines -/

/-- A line with a name, a colon, a gap and a value. -/
def spacedLine (name : Utf8.Octets) (gap : List Char) (value : Utf8.Octets) : Utf8.Octets :=
  name ++ (Utf8.encodeChars (':' :: gap) ++ value)

theorem decode_spacedLine (name : Utf8.Octets) (gap : List Char) (value : Utf8.Octets) :
    Utf8.decodeLossyChars (spacedLine name gap value) =
      Utf8.decodeLossyChars name ++ ':' :: (gap ++ Utf8.decodeLossyChars value) :=
  Utf8.decodeMarking_append_encodeChars (by unfold Utf8.IsAscii; decide) name gap value

theorem spacedLine_ne_nil (name : Utf8.Octets) (gap : List Char) (value : Utf8.Octets) :
    spacedLine name gap value ≠ [] := fun h => by
  have := congrArg Utf8.decodeLossyChars h
  rw [decode_spacedLine] at this
  simp [Utf8.decodeLossyChars, Utf8.decodeMarking, Utf8.pieces, Utf8.piecesFrom] at this

/-- A line end stands in no gap: only in name or value. -/
theorem lineEnd_infix_spacedLine_iff {gap : List Char} (h : IsGap gap) (name value : Utf8.Octets) :
    lineEndOctets <:+: spacedLine name gap value ↔ lineEndOctets <:+: name ∨ lineEndOctets <:+: value := by
  rw [← lineEnd_infix_decode, ← lineEnd_infix_decode, ← lineEnd_infix_decode, decode_spacedLine,
    infix_append_cons_iff (by decide), lineEnd, h.infix_append_iff (.inr rfl)]

theorem colon_not_mem_decode {name : Utf8.Octets} (h : (0x3A : UInt8) ∉ name) : ':' ∉ Utf8.decodeLossyChars name := by
  have hascii : ∀ c ∈ [':'], Utf8.IsAscii c := by simp [Utf8.IsAscii]
  rw [← List.singleton_infix_iff, Utf8.decodeLossyChars, Utf8.infix_decodeMarking_iff (by decide) hascii]
  exact fun hi => h ((List.singleton_infix_iff _ _).1 hi)

/-- What a header line is read as: the name and the value without the blanks in front of it, just if the
cut is left to the colon behind the name. -/
theorem headerOfLine?_spacedLine_iff {name : Utf8.Octets} (hn : name ≠ []) (hc : (0x3A : UInt8) ∉ name)
    {gap : List Char} (hg : IsGap gap) (value : Utf8.Octets) :
    headerOfLine? (Utf8.decodeLossyChars (spacedLine name gap value)) =
        some (Utf8.decodeLossy name, trimStart (Utf8.decodeLossy value)) ↔
      CutAtColon (gap ++ Utf8.decodeLossyChars value) := by
  have hne : Utf8.decodeLossyChars name ≠ [] := fun h => hn (Utf8.eq_nil_of_decodeMarking h)
  rw [← headerOfLine?_colon_eq_iff hne (colon_not_mem_decode hc), decode_spacedLine, hg.dropBlanks_append]
  unfold Utf8.decodeLossy trimStart
  rw [String.toList_ofList]

/-! ## A line among others -/

/-- A line that is not blank gives its entry between those of the lines above and below. -/
theorem entriesOf_append_cons {above below : List Utf8.Octets} {line : Utf8.Octets} (ha : [] ∉ above)
    (hl : line ≠ []) : entriesOf (above ++ line :: below) =
      entriesOf above ++ ((headerOfLine? (Utf8.decodeLossyChars line)).toList ++ entriesOf below) := by
  have hcons : entriesOf (line :: below) =
      (headerOfLine? (Utf8.decodeLossyChars line)).toList ++ entriesOf below := by
    have happend := @entriesOf_append [line] (by simpa using Ne.symm hl) below
    rw [List.singleton_append] at happend
    rw [happend]
    cases h : headerOfLine? (Utf8.decodeLossyChars line) <;> simp [h]
  rw [entriesOf_append ha, hcons, entriesOf_eq ha]

/-- The last of the lines with a name gives its value. -/
theorem lastWritten?_middle {name k v : String} (hk : upperAscii k = upperAscii name)
    (above : List (String × String)) : ∀ {below : List (String × String)},
      (∀ w ∈ below, eqIgnoringAsciiCase w.1 name = false) → lastWritten? name (above ++ ([(k, v)] ++ below)) = some v := by
  intro below
  induction below using List.reverseRecOn with
  | nil =>
    intro _
    rw [List.append_nil, lastWritten?_concat, if_pos hk]
  | append_singleton below w ih =>
    intro hb
    obtain ⟨k', v'⟩ := w
    have hne : upperAscii k' ≠ upperAscii name := fun he => by
      have hfalse := hb (k', v') (by simp)
      rw [eqIgnoringAsciiCase_iff.2 he] at hfalse
      cases hfalse
    rw [← List.append_assoc, ← List.append_assoc, lastWritten?_concat, if_neg hne, List.append_assoc]
    exact ih fun w hw => hb w (List.mem_append_left _ hw)

/-- What a datagram is read as that has a line at a place behind its first one and in front of a blank one. -/
theorem parse_of_line {bs first line : Utf8.Octets} {above below : List Utf8.Octets} {e : String × String}
    (h : splitAll lineEndOctets bs = first :: (above ++ line :: below)) (ha : [] ∉ above) (hl : line ≠ [])
    (he : headerOfLine? (Utf8.decodeLossyChars line) = some e) :
    parse bs = .ok {
      firstLine := (splitAll [' '] (Utf8.decodeLossyChars first)).map String.ofList
      headers := Headers.setAll [] (entriesOf above ++ ([e] ++ entriesOf below)) } := by
  rw [parse_of_lines h (List.append_ne_nil_of_right_ne_nil _ (List.cons_ne_nil _ _)), ofLines,
    entriesOf_append_cons ha hl, he]
  rfl

section

variable {bs first name value : Utf8.Octets} {above below : List Utf8.Octets} {gap gap' : List Char}

/-- The lines of a datagram in which the gap of one line is another. -/
theorem splitAll_respaced (h : splitAll lineEndOctets bs = first :: (above ++ spacedLine name gap value :: below))
    (hg : IsGap gap) (hg' : IsGap gap') :
    splitAll lineEndOctets (lineEndOctets.intercalate (first :: (above ++ spacedLine name gap' value :: below))) =
      first :: (above ++ spacedLine name gap' value :: below) := by
  have hwhole : ∀ l ∈ first :: (above ++ spacedLine name gap value :: below), ¬ lineEndOctets <:+: l := by
    rw [← h]
    exact not_infix_of_mem_splitAll (by decide)
  have hline := hwhole (spacedLine name gap value) (by simp)
  rw [lineEnd_infix_spacedLine_iff hg, ← lineEnd_infix_spacedLine_iff hg'] at hline
  refine splitAll_intercalate unbordered_lineEndOctets (by decide) (List.cons_ne_nil _ _) fun l hl => ?_
  simp only [List.mem_cons, List.mem_append] at hl hwhole
  rcases hl with rfl | hl | rfl | hl
  · exact hwhole _ (.inl rfl)
  · exact hwhole l (.inr (.inl hl))
  · exact hline
  · exact hwhole l (.inr (.inr (.inr hl)))

/-- Blanks behind the colon of a header line are optional where they leave the cut to that colon: for
every datagram and every header line of it, all such gaps give the same packet, in which the name, unless
a later line carries it too, has the value without the blanks in front of it. With a gap that does not
leave the cut to the colon the line is no header of that name and value. -/
theorem parse_respaced (h : splitAll lineEndOctets bs = first :: (above ++ spacedLine name gap value :: below))
    (ha : [] ∉ above) (hn : name ≠ []) (hc : (0x3A : UInt8) ∉ name) (hg : IsGap gap)
    (hcut : CutAtColon (gap ++ Utf8.decodeLossyChars value)) :
    (∀ gap', IsGap gap' → CutAtColon (gap' ++ Utf8.decodeLossyChars value) →
      parse (lineEndOctets.intercalate (first :: (above ++ spacedLine name gap' value :: below))) = parse bs) ∧
    (∃ p, parse bs = .ok p ∧ ((∀ w ∈ entriesOf below, eqIgnoringAsciiCase w.1 (Utf8.decodeLossy name) = false) →
      p.header? (Utf8.decodeLossy name) = some (trimStart (Utf8.decodeLossy value)))) ∧
    ∀ gap', IsGap gap' → (headerOfLine? (Utf8.decodeLossyChars (spacedLine name gap' value)) =
        some (Utf8.decodeLossy name, trimStart (Utf8.decodeLossy value)) ↔
      (gap' ++ Utf8.decodeLossyChars value).head? = some ' ' ∨ ¬ [':', ' '] <:+: Utf8.decodeLossyChars value) := by
  have hread := fun gap (hg : IsGap gap) => headerOfLine?_spacedLine_iff hn hc hg value
  have hparse := parse_of_line h ha (spacedLine_ne_nil _ _ _) ((hread gap hg).2 hcut)
  refine ⟨fun gap' hg' hcut' => ?_, ⟨_, hparse, fun hlast => ?_⟩, fun gap' hg' => ?_⟩
  · rw [hparse]
    exact parse_of_line (splitAll_respaced h hg hg') ha (spacedLine_ne_nil _ _ _) ((hread gap' hg').2 hcut')
  · have hsums := Headers.Sums.setAll (entriesOf above ++ ([(Utf8.decodeLossy name, trimStart (Utf8.decodeLossy value))] ++
      entriesOf below)) Headers.Sums.nil
    exact (hsums.value _).trans (lastWritten?_middle rfl _ hlast)
  · rw [hread gap' hg', cutAtColon_gap_iff hg']

end

/-- A notice whose second target has a tab and a space behind its colon. -/
def tabbedLines (gap : List Char) : List Utf8.Octets :=
  [Utf8.encode "NOTIFY *", Utf8.encode "nt: a", spacedLine (Utf8.encode "NT") gap (Utf8.encode "u:v"), Utf8.encode "nts:b"]

theorem parse_respaced_tabbed :
    IsGap ['\t', ' '] ∧ CutAtColon (['\t', ' '] ++ "u:v".toList) ∧
    parse (lineEndOctets.intercalate (tabbedLines [])) = parse (lineEndOctets.intercalate (tabbedLines ['\t', ' '])) ∧
    ∃ p, parse (lineEndOctets.intercalate (tabbedLines ['\t', ' '])) = .ok p ∧ p.header? "NT" = some "u:v" := by
  have hgap : IsGap ['\t', ' '] := by simp [IsGap]
  have hcut : CutAtColon (['\t', ' '] ++ "u:v".toList) := by decide
  have hlines : splitAll lineEndOctets (lineEndOctets.intercalate (tabbedLines ['\t', ' '])) =
      Utf8.encode "NOTIFY *" :: ([Utf8.encode "nt: a"] ++
        spacedLine (Utf8.encode "NT") ['\t', ' '] (Utf8.encode "u:v") :: [Utf8.encode "nts:b"]) := rfl
  obtain ⟨hsame, ⟨p, hp, hvalue⟩, -⟩ := parse_respaced hlines (by decide) (by decide) (by decide) hgap hcut
  exact ⟨hgap, hcut, hsame [] (by simp [IsGap]) (by decide), p, hp, hvalue (by decide)⟩

/-- A value with a colon and a space takes the cut from the colon behind the name, unless a space stands
there. -/
theorem colon_in_value_takes_cut :
    let lines := fun gap => [Utf8.encode "NOTIFY *", spacedLine (Utf8.encode "X") gap (Utf8.encode "a: b")]
    ∃ p q, parse (lineEndOctets.intercalate (lines [])) = .ok p ∧
      parse (lineEndOctets.intercalate (lines [' '])) = .ok q ∧ p ≠ q ∧
      p.header? "X" = none ∧ p.header? "X:a" = some "b" ∧ q.header? "X" = some "a: b" :=
  ⟨{ firstLine := ["NOTIFY", "*"], headers := [("X:A", "b")] },
    { firstLine := ["NOTIFY", "*"], headers := [("X", "a: b")] }, rfl, rfl, by decide, rfl, rfl, rfl⟩

end Packet

end Upnp.Ssdp
