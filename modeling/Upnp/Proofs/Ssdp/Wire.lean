import Upnp.Proofs.Ssdp.Lines

/-
Packets on the wire. The packets that reading yields are exactly fit for writing: their text is cut
where it was put together, so that reading it gives the packet back. Whatever octets a packet was
read from, its own text is thereby a normal form of them.
-/

namespace Upnp.Ssdp

open Upnp.Text

namespace Packet

/-- The packet is what its text is read as. -/
structure FitForWire (p : Packet) : Prop where
  line : p.firstLine ≠ []
  token : ∀ t ∈ p.firstLine, ¬ [' '] <:+: t.toList ∧ ¬ lineEnd <:+: t.toList
  entry : ∀ h ∈ p.headers, FitForLine h
  headers : p.headers.Normal
  sender : p.sender = none
  interface : p.interface = none

/-! ## What is read is fit for writing -/

theorem entriesOf_fit {lines : List Utf8.Octets} (h : ∀ l ∈ lines, ¬ lineEndOctets <:+: l) :
    ∀ e ∈ entriesOf lines, FitForLine e := by
  intro e he
  obtain ⟨l, hl, hr⟩ := List.mem_filterMap.1 he
  have hno : ¬ lineEnd <:+: Utf8.decodeLossyChars l := by
    rw [lineEnd_infix_decode]
    exact h l ((List.takeWhile_sublist _).subset hl)
  exact fitForLine_of_headerOfLine? hno hr

theorem firstLine_fit {first : Utf8.Octets} (h : ¬ lineEndOctets <:+: first) :
    ∀ t ∈ (splitAll [' '] (Utf8.decodeLossyChars first)).map String.ofList,
      ¬ [' '] <:+: t.toList ∧ ¬ lineEnd <:+: t.toList := by
  intro t ht
  obtain ⟨cs, hcs, rfl⟩ := List.mem_map.1 ht
  rw [String.toList_ofList]
  refine ⟨not_infix_of_mem_splitAll (List.cons_ne_nil _ _) cs hcs, fun hi => h ?_⟩
  rw [← lineEnd_infix_decode]
  exact hi.trans (infix_of_mem_splitAll (List.cons_ne_nil _ _) cs hcs)

/-- Every packet that is read from octets is fit for the wire. -/
theorem fitForWire_of_parse {bs : Utf8.Octets} {p : Packet} (h : parse bs = .ok p) : p.FitForWire := by
  obtain ⟨first, lines, hlines, rfl⟩ := lines_of_parse h
  have hwhole : ∀ l ∈ first :: lines, ¬ lineEndOctets <:+: l := by
    rw [← hlines]
    exact not_infix_of_mem_splitAll (by decide)
  rw [List.forall_mem_cons] at hwhole
  exact {
    line := fun he => splitAll_ne_nil _ _ (List.map_eq_nil_iff.1 he)
    token := firstLine_fit hwhole.1
    entry := fun e he => by
      rcases Headers.mem_setAll _ he with he | ⟨x, hx, rfl⟩
      · cases he
      · exact (entriesOf_fit hwhole.2 x hx).upperAscii
    headers := Headers.Normal.setAll _ Headers.Normal.nil
    sender := rfl
    interface := rfl }

/-! ## What is written is read back -/

/-- The characters of the first line, without its end. -/
def firstLineChars (p : Packet) : List Char :=
  [' '].intercalate (p.firstLine.map String.toList)

/-- The header lines, without their ends. -/
def lines (p : Packet) : List (List Char) :=
  p.headers.map headerLine

/-- The text of a packet is its lines, with two blank ones behind them. -/
theorem toText_toList (p : Packet) :
    p.toText.toList = lineEnd.intercalate (p.firstLineChars :: (p.lines ++ [[], []])) := by
  have hline : ∀ h : String × String, (h.1 ++ ": " ++ h.2 ++ "\r\n").toList = headerLine h ++ lineEnd := by
    intro h
    simp [headerLine, lineEnd, String.toList_append]
  have hlines : (String.join (p.headers.map fun h => h.1 ++ ": " ++ h.2 ++ "\r\n")).toList =
      p.lines.flatMap (· ++ lineEnd) := by
    rw [String.toList_join, lines, List.flatMap_map, List.flatMap_map]
    exact congrArg (fun f => p.headers.flatMap f) (funext hline)
  show (" ".intercalate p.firstLine ++ "\r\n" ++
    String.join (p.headers.map fun h => h.1 ++ ": " ++ h.2 ++ "\r\n") ++ "\r\n").toList = _
  rw [intercalate_ended]
  simp only [String.toList_append, hlines, String.toList_intercalate]
  simp [firstLineChars, lineEnd]

theorem splitAll_firstLineChars {p : Packet} (hp : p.FitForWire) :
    (splitAll [' '] p.firstLineChars).map String.ofList = p.firstLine := by
  unfold firstLineChars
  rw [splitAll_intercalate (unbordered_singleton ' ') (List.cons_ne_nil _ _), List.map_map]
  · exact List.map_id'' (fun s => String.ofList_toList) _
  · simpa using hp.line
  · intro cs hcs
    obtain ⟨t, ht, rfl⟩ := List.mem_map.1 hcs
    exact (hp.token t ht).1

theorem not_lineEnd_firstLineChars {p : Packet} (h : ∀ t ∈ p.firstLine, ¬ lineEnd <:+: t.toList) :
    ¬ lineEnd <:+: p.firstLineChars := by
  refine not_infix_intercalate (by decide) (by decide) ?_
  intro cs hcs
  obtain ⟨t, ht, rfl⟩ := List.mem_map.1 hcs
  exact h t ht

theorem lines_fit {p : Packet} (hp : ∀ h ∈ p.headers, FitForLine h) : ∀ l ∈ p.lines, l ≠ [] ∧ ¬ lineEnd <:+: l := by
  intro l hl
  obtain ⟨h, hh, rfl⟩ := List.mem_map.1 hl
  exact ⟨headerLine_ne_nil h, not_lineEnd_headerLine (hp h hh)⟩

/-- What is written has the lines that were joined, behind those that the first line is cut into. -/
theorem splitAll_toOctets {p : Packet} (hp : ∀ h ∈ p.headers, FitForLine h) : splitAll lineEndOctets p.toOctets =
    splitAll lineEndOctets (Utf8.encodeChars p.firstLineChars) ++ (p.lines ++ [[], []]).map Utf8.encodeChars := by
  have hwhole : ∀ cs ∈ p.lines ++ [[], []], ¬ lineEnd <:+: cs := by
    simp only [List.mem_append, List.mem_cons, List.not_mem_nil, or_false]
    rintro cs (hcs | rfl | rfl)
    · exact (lines_fit hp cs hcs).2
    · decide
    · decide
  have hoctets : p.toOctets = Utf8.encodeChars p.firstLineChars ++
      (lineEndOctets ++ lineEndOctets.intercalate ((p.lines ++ [[], []]).map Utf8.encodeChars)) := by
    unfold toOctets Utf8.encode
    rw [toText_toList, Utf8.encodeChars_intercalate, encodeChars_lineEnd, List.map_cons,
      List.intercalate_cons_of_ne_nil (by simp), List.append_assoc]
  rw [hoctets, splitAll_append_sep unbordered_lineEndOctets (by decide)]
  refine congrArg _ (splitAll_intercalate unbordered_lineEndOctets (by decide) (by simp) fun l hl => ?_)
  obtain ⟨cs, hcs, rfl⟩ := List.mem_map.1 hl
  rw [lineEndOctets_infix_encode]
  exact hwhole cs hcs

/-- The header lines are read as the headers, up to the blank lines behind them. -/
theorem entriesOf_lines {p : Packet} (hp : ∀ h ∈ p.headers, FitForLine h) :
    entriesOf ((p.lines ++ [[], []]).map Utf8.encodeChars) = p.headers := by
  have hne : [] ∉ p.lines.map Utf8.encodeChars := fun hm => by
    obtain ⟨cs, hcs, he⟩ := List.mem_map.1 hm
    exact (lines_fit hp cs hcs).1 (Utf8.eq_nil_of_encodeChars he)
  rw [List.map_append, entriesOf_append hne, List.filterMap_map]
  simp only [Function.comp_def, Utf8.decodeLossyChars_encodeChars]
  rw [lines, filterMap_headerLines hp]
  exact List.append_nil _

/-- A packet that is fit for the wire is what its text is read as. -/
theorem parse_toOctets_of_fit {p : Packet} (hp : p.FitForWire) : parse p.toOctets = .ok p := by
  have hfirst : ¬ lineEndOctets <:+: Utf8.encodeChars p.firstLineChars := by
    rw [lineEndOctets_infix_encode]
    exact not_lineEnd_firstLineChars fun t ht => (hp.token t ht).2
  have hone : splitAll lineEndOctets (Utf8.encodeChars p.firstLineChars) = [Utf8.encodeChars p.firstLineChars] :=
    splitAll_of_not_infix (by decide) hfirst
  have hlines := splitAll_toOctets hp.entry
  rw [hone, List.singleton_append] at hlines
  rw [parse_of_lines hlines (by simp), ofLines, entriesOf_lines hp.entry,
    Headers.setAll_nil_of_normal hp.headers, Utf8.decodeLossyChars_encodeChars, splitAll_firstLineChars hp,
    ← hp.sender, ← hp.interface]

/-! ## The normal form -/

/-- The text of a packet that was read from any octets is read as the very same packet, which knows
neither sender nor interface. -/
theorem parse_toOctets_of_parse {bs : Utf8.Octets} {p : Packet} (h : parse bs = .ok p) :
    p.sender = none ∧ p.interface = none ∧ parse p.toOctets = .ok p := by
  have hp := fitForWire_of_parse h
  exact ⟨hp.sender, hp.interface, parse_toOctets_of_fit hp⟩

/-- A datagram with an empty token, a name given twice, a line without name, a stray line feed, an octet
that is no text and a body. -/
def strayOctets : Utf8.Octets :=
  Utf8.encode "NOTIFY  *\r\nhost:a:b\r\n: x\r\nst:  y\nz\r\nHost: c\r\n" ++ [0xFF, 0x3A, 13, 10, 13, 10, 0x41]

def strayPacket : Packet where
  firstLine := ["NOTIFY", "", "*"]
  headers := [("HOST", "c"), ("ST", "y\nz"), ("\uFFFD", "")]

theorem parse_toOctets_of_parse_strayOctets : parse strayOctets = .ok strayPacket ∧
    strayPacket.sender = none ∧ strayPacket.interface = none ∧
      parse strayPacket.toOctets = .ok strayPacket := by
  have h : parse strayOctets = .ok strayPacket := by rfl
  exact ⟨h, parse_toOctets_of_parse h⟩

end Packet

end Upnp.Ssdp
