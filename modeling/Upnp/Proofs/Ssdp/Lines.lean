import Upnp.Proofs.Ssdp.Headers
import Upnp.Proofs.Text.Utf8

/-
Datagrams line by line. Reading computes two positions, the end of the first line and the first blank
line, by two searches over the same octets; the first blank line begins at the end of the first line or
behind its line end, so that both positions lie within the datagram and reading fails only where there
is no first line. What is read are the lines: tokens of the first, and headers of those behind it up to
the first blank one.
-/

namespace Upnp.Ssdp

open Upnp.Text

namespace Packet

/-! ## Octets of line ends -/

theorem encodeChars_lineEnd : Utf8.encodeChars lineEnd = lineEndOctets := by
  decide

theorem blankLineOctets_eq : blankLineOctets = lineEndOctets ++ lineEndOctets :=
  rfl

theorem unbordered_lineEnd : Unbordered lineEnd := by
  unfold Unbordered
  decide

theorem unbordered_lineEndOctets : Unbordered lineEndOctets := by
  unfold Unbordered
  decide

theorem lineEnd_isAscii : ∀ c ∈ lineEnd, Utf8.IsAscii c := by
  simp [lineEnd, Utf8.IsAscii]

theorem lineEnd_infix_decode (bs : Utf8.Octets) :
    lineEnd <:+: Utf8.decodeLossyChars bs ↔ lineEndOctets <:+: bs := by
  rw [← encodeChars_lineEnd]
  exact Utf8.infix_decodeMarking_iff (by decide) lineEnd_isAscii bs

theorem lineEndOctets_infix_encode (cs : List Char) :
    lineEndOctets <:+: Utf8.encodeChars cs ↔ lineEnd <:+: cs := by
  rw [← encodeChars_lineEnd]
  exact Utf8.encodeChars_infix_iff lineEnd_isAscii cs

/-! ## The header block -/

/-- What stands in front of the first blank line, in the octets behind the first line. -/
def blockOf (rest : Utf8.Octets) : Utf8.Octets :=
  if lineEndOctets <+: rest then [] else ((splitOnce? blankLineOctets rest).map Prod.fst).getD rest

theorem blockOf_isPrefix (rest : Utf8.Octets) : blockOf rest <+: rest := by
  unfold blockOf
  split
  · exact List.nil_prefix
  · cases h : splitOnce? blankLineOctets rest with
    | none => exact List.prefix_refl rest
    | some r => exact ⟨blankLineOctets ++ r.2, (splitOnce?_some h).symm⟩

theorem blockOf_of_blank {rest : Utf8.Octets} (h : lineEndOctets <+: rest) : blockOf rest = [] :=
  if_pos h

/-- A line in front of a blank line is all of the block. -/
theorem blockOf_blank {line : Utf8.Octets} (hne : line ≠ []) (hl : ¬ lineEndOctets <:+: line) (t : Utf8.Octets) :
    blockOf (line ++ (lineEndOctets ++ (lineEndOctets ++ t))) = line := by
  unfold blockOf
  rw [if_neg (unbordered_lineEndOctets.not_prefix_append hne hl), blankLineOctets_eq,
    splitOnce?_twice unbordered_lineEndOctets (by decide) hl]
  rfl

/-- Behind a line the block goes on with the block of what is behind its end, unless that is blank. -/
theorem blockOf_line {line rest : Utf8.Octets} (hne : line ≠ []) (hl : ¬ lineEndOctets <:+: line)
    (hr : ¬ lineEndOctets <+: rest) :
    blockOf (line ++ (lineEndOctets ++ rest)) = line ++ (lineEndOctets ++ blockOf rest) := by
  unfold blockOf
  rw [if_neg (unbordered_lineEndOctets.not_prefix_append hne hl), if_neg hr, blankLineOctets_eq,
    splitOnce?_twice_of_not unbordered_lineEndOctets hl hr]
  cases splitOnce? (lineEndOctets ++ lineEndOctets) rest <;> rfl

/-- Where the header block starts and stops: it stops at the end of the first line where a blank line
begins, and never within the line end in front of it. -/
theorem headerBlock_of_cut {bs first rest : Utf8.Octets} (h : splitOnce? lineEndOctets bs = some (first, rest)) :
    headerBlock bs first.length = (first.length + 2,
      if lineEndOctets <+: rest then first.length else first.length + 2 + (blockOf rest).length) := by
  have hfirst : ¬ lineEndOctets <:+: first := not_infix_of_splitOnce? (by decide) h
  have h2 : lineEndOctets.length = 2 := rfl
  unfold headerBlock indexOf? blockOf
  rw [splitOnce?_some h, blankLineOctets_eq, h2]
  split
  · rename_i hp
    obtain ⟨t, rfl⟩ := hp
    rw [splitOnce?_twice unbordered_lineEndOctets (by decide) hfirst]
    rfl
  · rename_i hp
    rw [splitOnce?_twice_of_not unbordered_lineEndOctets hfirst hp]
    cases splitOnce? (lineEndOctets ++ lineEndOctets) rest with
    | none => simp [h2, Nat.add_assoc]
    | some r => simp [h2, Nat.add_assoc]

theorem length_of_cut {bs first rest : Utf8.Octets} (h : splitOnce? lineEndOctets bs = some (first, rest)) :
    bs.length = first.length + 2 + rest.length := by
  rw [splitOnce?_some h, List.length_append, List.length_append, Nat.add_assoc]
  rfl

/-- The positions that reading computes are in order and within the datagram. -/
theorem headerBlock_within {bs first rest : Utf8.Octets} (h : splitOnce? lineEndOctets bs = some (first, rest)) :
    first.length ≤ (headerBlock bs first.length).2 ∧ (headerBlock bs first.length).1 ≤ bs.length ∧
      (headerBlock bs first.length).2 ≤ bs.length := by
  have hlen := length_of_cut h
  have hblock := (blockOf_isPrefix rest).length_le
  rw [headerBlock_of_cut h]
  simp only
  split <;> omega

/-- Where the header block is not empty, it is what is cut out between the two positions. -/
theorem cut_headerBlock {bs first rest : Utf8.Octets} (h : splitOnce? lineEndOctets bs = some (first, rest))
    (hlt : (headerBlock bs first.length).1 < (headerBlock bs first.length).2) :
    (bs.take (headerBlock bs first.length).2).drop (headerBlock bs first.length).1 = blockOf rest := by
  rw [headerBlock_of_cut h] at hlt ⊢
  simp only at hlt ⊢
  split at hlt
  · omega
  · rename_i hp
    obtain ⟨t, ht⟩ := blockOf_isPrefix rest
    have hbs : bs = (first ++ lineEndOctets) ++ (blockOf rest ++ t) := by
      rw [splitOnce?_some h, ht, List.append_assoc]
    have hlen : (first ++ lineEndOctets).length = first.length + 2 := List.length_append
    rw [if_neg hp, hbs, ← hlen, List.take_length_add_append, List.take_left, List.drop_left]

/-! ## Reading within the datagram -/

/-- A datagram with a first line is a packet, with the headers of its block. -/
theorem parse_of_cut {bs first rest : Utf8.Octets} (h : splitOnce? lineEndOctets bs = some (first, rest)) :
    parse bs = .ok {
      firstLine := (splitAll [' '] (Utf8.decodeLossyChars first)).map String.ofList
      headers := addHeaders (Utf8.decodeLossyChars (blockOf rest)) [] } := by
  obtain ⟨hstop, hstart, -⟩ := headerBlock_within h
  have hne : bs.isEmpty = false := by
    rw [List.isEmpty_eq_false_iff, ← List.length_pos_iff, length_of_cut h]
    omega
  have hheaders : (if (headerBlock bs first.length).2 > (headerBlock bs first.length).1 then
      addHeaders (Utf8.decodeLossyChars ((bs.take (headerBlock bs first.length).2).drop
        (headerBlock bs first.length).1)) [] else []) =
      addHeaders (Utf8.decodeLossyChars (blockOf rest)) [] := by
    split
    · rename_i hlt
      rw [cut_headerBlock h hlt]
    · rename_i hle
      -- nothing between the positions: the block is empty
      have hnil : blockOf rest = [] := by
        rw [headerBlock_of_cut h] at hle
        simp only at hle
        split at hle
        · rename_i hp
          exact blockOf_of_blank hp
        · exact List.eq_nil_of_length_eq_zero (by omega)
      rw [hnil]
      rfl
  unfold parse
  rw [hne, if_neg Bool.false_ne_true, h]
  simp only
  rw [if_neg (by omega), hheaders]

theorem parse_nil : parse [] = .error .empty :=
  rfl

theorem parse_of_not_infix {bs : Utf8.Octets} (hne : bs ≠ []) (h : ¬ lineEndOctets <:+: bs) :
    parse bs = .error .noFirstLine := by
  unfold parse
  rw [if_neg (by simpa using hne), splitOnce?_eq_none.2 h]

/-- All ways in which reading ends: the datagram is empty, has no line end, or is a packet, cut at its
first line end. -/
theorem parse_cases (bs : Utf8.Octets) :
    (bs = [] ∧ parse bs = .error .empty) ∨
    (bs ≠ [] ∧ ¬ lineEndOctets <:+: bs ∧ parse bs = .error .noFirstLine) ∨
    ∃ first rest p, splitOnce? lineEndOctets bs = some (first, rest) ∧ parse bs = .ok p := by
  by_cases hne : bs = []
  · exact .inl ⟨hne, hne ▸ parse_nil⟩
  · cases h : splitOnce? lineEndOctets bs with
    | none =>
      have hno := splitOnce?_eq_none.1 h
      exact .inr (.inl ⟨hne, hno, parse_of_not_infix hne hno⟩)
    | some r => exact .inr (.inr ⟨r.1, r.2, _, rfl, parse_of_cut h⟩)

/-- The octets between two positions, where these are in order and in range. -/
def slice? (bs : Utf8.Octets) (start stop : Nat) : Option Utf8.Octets :=
  if start ≤ stop ∧ stop ≤ bs.length then some ((bs.take stop).drop start) else none

theorem slice?_of_within {bs : Utf8.Octets} {start stop : Nat} (h : start ≤ stop) (hs : stop ≤ bs.length) :
    slice? bs start stop = some ((bs.take stop).drop start) :=
  if_pos ⟨h, hs⟩

/-- Reading that comes to nothing where it would cut octets out of range. -/
def parseWithin? (bs : Utf8.Octets) : Option (Except PacketError Packet) :=
  if bs.isEmpty then some (.error .empty)
  else
    match indexOf? lineEndOctets bs with
    | none => some (.error .noFirstLine)
    | some size =>
      (slice? bs 0 size).bind fun first =>
        let (start, stop) := headerBlock bs size
        if stop < size ∨ start > bs.length then some (.error (.badHeaderBlock start stop))
        else
          (if stop > start then (slice? bs start stop).map fun block => addHeaders (Utf8.decodeLossyChars block) []
            else some []).map fun headers =>
            .ok { firstLine := (splitAll [' '] (Utf8.decodeLossyChars first)).map String.ofList, headers }

/-- Reading never cuts octets out of range. -/
theorem parseWithin?_eq (bs : Utf8.Octets) : parseWithin? bs = some (parse bs) := by
  by_cases hne : bs = []
  · subst hne
    rfl
  have hempty : bs.isEmpty = false := by simpa using hne
  unfold parseWithin? parse indexOf?
  rw [hempty]
  simp only [if_neg Bool.false_ne_true]
  cases h : splitOnce? lineEndOctets bs with
  | none => rfl
  | some r =>
    obtain ⟨first, rest⟩ := r
    obtain ⟨hstop, hstart, hwithin⟩ := headerBlock_within h
    have hlen := length_of_cut h
    have hfirst : slice? bs 0 first.length = some first := by
      rw [slice?_of_within (Nat.zero_le _) (by omega), List.drop_zero, splitOnce?_some h, List.take_left]
    have hout : ¬ ((headerBlock bs first.length).2 < first.length ∨ (headerBlock bs first.length).1 > bs.length) := by
      omega
    simp only [Option.map_some, hfirst, Option.bind_some, if_neg hout]
    split
    · rename_i hlt
      rw [slice?_of_within (Nat.le_of_lt hlt) hwithin]
      rfl
    · rfl

/-- Reading is total and fails for a stated reason: exactly the empty datagram is refused as empty and
exactly one without a line end as one without a first line, all others are packets; no header block is
bad, and no octets are cut out of range. -/
theorem parse_total (bs : Utf8.Octets) :
    (parse bs = .error .empty ↔ bs = []) ∧
    (parse bs = .error .noFirstLine ↔ bs ≠ [] ∧ ¬ lineEndOctets <:+: bs) ∧
    ((∃ p, parse bs = .ok p) ↔ lineEndOctets <:+: bs) ∧
    (∀ start stop, parse bs ≠ .error (.badHeaderBlock start stop)) ∧
    parseWithin? bs = some (parse bs) := by
  rcases parse_cases bs with ⟨rfl, h⟩ | ⟨hne, hno, h⟩ | ⟨first, rest, p, hcut, h⟩
  · simp [h, parseWithin?_eq, lineEndOctets]
  · simp [h, hne, hno, parseWithin?_eq]
  · have hin : lineEndOctets <:+: bs := ⟨first, rest, by rw [splitOnce?_some hcut, List.append_assoc]⟩
    have hne : bs ≠ [] := by
      rintro rfl
      exact absurd hin (by decide)
    simp [h, hne, hin, parseWithin?_eq]

/-! ## The lines of a datagram -/

/-- Decoding leaves the lines as they are. -/
theorem splitAll_decode (bs : Utf8.Octets) :
    splitAll lineEnd (Utf8.decodeLossyChars bs) = (splitAll lineEndOctets bs).map Utf8.decodeLossyChars := by
  refine splitAll_induction (by decide)
    (P := fun bs ls => splitAll lineEnd (Utf8.decodeLossyChars bs) = ls.map Utf8.decodeLossyChars) ?_ ?_ bs
  · intro bs h
    have hwhole : ¬ lineEnd <:+: Utf8.decodeLossyChars bs := by rwa [lineEnd_infix_decode]
    exact splitAll_of_not_infix (by decide) hwhole
  · intro a b ls ha ih
    have hdecode : Utf8.decodeLossyChars (a ++ (lineEndOctets ++ b)) =
        Utf8.decodeLossyChars a ++ (lineEnd ++ Utf8.decodeLossyChars b) :=
      Utf8.decodeMarking_append_encodeChars (lineEnd_isAscii '\r' (by decide)) a ['\n'] b
    rw [hdecode, splitAll_append unbordered_lineEnd (by decide) (by rwa [lineEnd_infix_decode]), ih]
    rfl

/-- The lines of the block are those in front of the first blank line, but for blank ones. -/
theorem filterMap_blockOf {β : Type} {f : Utf8.Octets → Option β} (hf : f [] = none) (rest : Utf8.Octets) :
    (splitAll lineEndOctets (blockOf rest)).filterMap f =
      ((splitAll lineEndOctets rest).takeWhile (· ≠ [])).filterMap f := by
  have hblank : ∀ {t : Utf8.Octets}, lineEndOctets <+: t → (splitAll lineEndOctets (blockOf t)).filterMap f = [] := by
    intro t ht
    rw [blockOf_of_blank ht, splitAll_of_not_infix (by decide) (by decide)]
    simp [hf]
  refine splitAll_induction (by decide) (P := fun rest ls =>
    (splitAll lineEndOctets (blockOf rest)).filterMap f = (ls.takeWhile (· ≠ [])).filterMap f) ?_ ?_ rest
  · intro line hl
    have hblock : blockOf line = line := by
      have hno : ¬ blankLineOctets <:+: line := fun hi => hl ((List.prefix_append _ _).isInfix.trans hi)
      rw [blockOf, if_neg fun hp => hl hp.isInfix, splitOnce?_eq_none.2 hno]
      rfl
    rw [hblock, splitAll_of_not_infix (by decide) hl]
    by_cases hne : line = []
    · simp [hne, hf]
    · simp [hne]
  · intro line rest ls hl ih
    by_cases hne : line = []
    · -- a blank line at the front leaves nothing
      rw [hne, List.nil_append, hblank (List.prefix_append _ _)]
      rfl
    by_cases hr : lineEndOctets <+: rest
    · -- a blank line comes next
      rw [List.takeWhile_cons_of_pos (by simpa using hne), List.filterMap_cons, ← ih, hblank hr]
      obtain ⟨t, rfl⟩ := hr
      rw [blockOf_blank hne hl, splitAll_of_not_infix (by decide) hl]
      rfl
    · rw [blockOf_line hne hl hr, splitAll_append unbordered_lineEndOctets (by decide) hl,
        List.takeWhile_cons_of_pos (by simpa using hne), List.filterMap_cons, List.filterMap_cons, ih]

/-- The entries that lines give as headers: those in front of the first blank line, each cut into name
and value. -/
def entriesOf (lines : List Utf8.Octets) : List (String × String) :=
  (lines.takeWhile (· ≠ [])).filterMap fun l => headerOfLine? (Utf8.decodeLossyChars l)

theorem addHeaders_eq (block : List Char) (hs : Headers) :
    addHeaders block hs = hs.setAll ((splitAll lineEnd block).filterMap headerOfLine?) :=
  rfl

theorem addHeaders_blockOf (rest : Utf8.Octets) :
    addHeaders (Utf8.decodeLossyChars (blockOf rest)) [] =
      Headers.setAll [] (entriesOf (splitAll lineEndOctets rest)) := by
  rw [addHeaders_eq, splitAll_decode, List.filterMap_map]
  exact congrArg (Headers.setAll []) (filterMap_blockOf rfl rest)

/-- Lines that are not blank give their entries, whatever stands behind them. -/
theorem entriesOf_append {above : List Utf8.Octets} (h : [] ∉ above) (below : List Utf8.Octets) :
    entriesOf (above ++ below) =
      (above.filterMap fun l => headerOfLine? (Utf8.decodeLossyChars l)) ++ entriesOf below := by
  have habove : ∀ l ∈ above, decide (l ≠ []) = true := fun l hl => decide_eq_true fun he => h (he ▸ hl)
  unfold entriesOf
  rw [List.takeWhile_append_of_pos habove, List.filterMap_append]

theorem entriesOf_eq {lines : List Utf8.Octets} (h : [] ∉ lines) :
    entriesOf lines = lines.filterMap fun l => headerOfLine? (Utf8.decodeLossyChars l) := by
  have happend := entriesOf_append h []
  have hnil : entriesOf [] = [] := rfl
  rwa [List.append_nil, hnil, List.append_nil] at happend

/-- What lines are read as: the tokens of the first, and the entries of the others, written one after the
other. -/
def ofLines (first : Utf8.Octets) (lines : List Utf8.Octets) : Packet where
  firstLine := (splitAll [' '] (Utf8.decodeLossyChars first)).map String.ofList
  headers := Headers.setAll [] (entriesOf lines)

/-- A datagram of more than one line is what its lines are read as. -/
theorem parse_of_lines {bs first : Utf8.Octets} {lines : List Utf8.Octets}
    (h : splitAll lineEndOctets bs = first :: lines) (hl : lines ≠ []) : parse bs = .ok (ofLines first lines) := by
  rw [splitAll_eq (by decide)] at h
  cases hcut : splitOnce? lineEndOctets bs with
  | none =>
    rw [hcut, List.cons.injEq] at h
    exact absurd h.2.symm hl
  | some r =>
    rw [hcut, List.cons.injEq] at h
    rw [parse_of_cut hcut, addHeaders_blockOf, ofLines, h.1, h.2]

/-- The lines of what is a packet. -/
theorem lines_of_parse {bs : Utf8.Octets} {p : Packet} (h : parse bs = .ok p) :
    ∃ first lines, splitAll lineEndOctets bs = first :: lines ∧ p = ofLines first lines := by
  rcases parse_cases bs with ⟨-, he⟩ | ⟨-, -, he⟩ | ⟨first, rest, -, hcut, -⟩
  · rw [he] at h
    cases h
  · rw [he] at h
    cases h
  · have hlines : splitAll lineEndOctets bs = first :: splitAll lineEndOctets rest := by
      rw [splitAll_eq (by decide), hcut]
    rw [parse_of_lines hlines (splitAll_ne_nil _ _)] at h
    exact ⟨first, _, hlines, (Except.ok.inj h).symm⟩

end Packet

end Upnp.Ssdp
