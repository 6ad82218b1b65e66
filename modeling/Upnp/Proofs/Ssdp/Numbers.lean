import Upnp.Proofs.Decimal.Integer
import Upnp.Proofs.Ssdp.Answer
import Upnp.Proofs.Ssdp.Writes

/-
Numbers in headers. A number that was written under a known header stays there until the header is
written again. It is read back from the text of the packet, if reading gets as far as the headers:
whatever the first line holds besides a blank line, the headers are the last that is written.
-/

namespace Upnp.Ssdp

open Upnp.Text Upnp.Decimal

namespace Packet

/-! ## Headers behind any first line -/

/-- Reading the packet's text gets to all of its headers: their entries are fit for lines, and no blank
line is written in front of them. -/
structure KeepsHeaders (p : Packet) : Prop where
  headers : p.headers.Normal
  entry : ∀ h ∈ p.headers, FitForLine h
  above : ¬ lineEnd ++ lineEnd <:+: p.firstLineChars ++ lineEnd

/-- No line that is written in front of the headers is blank, the first apart. -/
theorem KeepsHeaders.nil_not_mem {p : Packet} (h : p.KeepsHeaders) :
    [] ∉ (splitAll lineEndOctets (Utf8.encodeChars p.firstLineChars)).tail := fun hm => by
  have htwice := infix_of_nil_mem_tail_splitAll (by decide) hm
  rw [← encodeChars_lineEnd, ← Utf8.encodeChars_append, ← Utf8.encodeChars_append,
    Utf8.encodeChars_infix_iff (by simp [lineEnd, Utf8.IsAscii])] at htwice
  exact h.above htwice

/-- The text of such a packet is read as a packet in which every header has the value that it had. -/
theorem KeepsHeaders.parse_toOctets {p : Packet} (h : p.KeepsHeaders) : ∃ r, parse p.toOctets = .ok r ∧
    ∀ name value, p.header? name = some value → r.header? name = some value := by
  obtain ⟨first, stray, hfirst⟩ := List.exists_cons_of_ne_nil
    (splitAll_ne_nil lineEndOctets (Utf8.encodeChars p.firstLineChars))
  have hstray := h.nil_not_mem
  have hlines := splitAll_toOctets h.entry
  rw [hfirst, List.tail_cons] at hstray
  rw [hfirst, List.cons_append] at hlines
  refine ⟨_, parse_of_lines hlines (by simp), fun name value hvalue => ?_⟩
  -- headers that the first line brings in are written before the packet's own
  have hown : p.headers.Sums p.headers := by
    have hsums := Headers.Sums.setAll p.headers Headers.Sums.nil
    rwa [Headers.setAll_nil_of_normal h.headers, List.nil_append] at hsums
  have hentries : entriesOf (stray ++ (p.lines ++ [[], []]).map Utf8.encodeChars) =
      (stray.filterMap fun l => headerOfLine? (Utf8.decodeLossyChars l)) ++ p.headers := by
    rw [entriesOf_append hstray, entriesOf_lines h.entry]
  have hget : p.headers.get? name = some value := hvalue
  show (Headers.setAll [] (entriesOf _)).get? name = some value
  rw [hentries, (Headers.Sums.setAll _ Headers.Sums.nil).value name, List.nil_append, lastWritten?_append,
    ← hown.value name, hget, Option.some_or]

/-! ## Changes of other headers -/

/-- The change writes no header of this name, in any letter case. -/
def Change.Spares (name : String) (c : Change) : Prop :=
  ∀ w ∈ c.written?, upperAscii w.1 ≠ upperAscii name

instance (name : String) (c : Change) : Decidable (c.Spares name) :=
  inferInstanceAs (Decidable (∀ w ∈ c.written?, _))

theorem header?_setHeader (p : Packet) (name value : String) : (p.setHeader name value).header? name = some value :=
  (Headers.find?_put _ value _ p.headers).trans (if_pos rfl)

theorem header?_apply {name : String} {c : Change} (h : c.Spares name) (p : Packet) :
    (p.apply c).header? name = p.header? name := by
  unfold header?
  rw [headers_apply]
  cases hw : c.written? with
  | none => rfl
  | some w => exact (Headers.find?_put _ w.2 _ p.headers).trans (if_neg (h w hw))

/-- A header keeps its value while other headers and the first line are changed. -/
theorem header?_foldl_apply {name : String} {cs : List Change} (h : ∀ c ∈ cs, c.Spares name) (p : Packet) :
    (cs.foldl apply p).header? name = p.header? name := by
  induction cs generalizing p with
  | nil => rfl
  | cons c cs ih =>
    rw [List.forall_mem_cons] at h
    rw [List.foldl_cons, ih h.2, header?_apply h.1]

/-! ## Numbers -/

/-- A header has a 64-bit number just if its text, trimmed, denotes the number and the number is one of
64 bits. -/
theorem headerInt?_eq_some_iff {p : Packet} {name : String} {n : Int} : p.headerInt? name = some n ↔
    ∃ text, p.header? name = some text ∧ Denotes (trim text).toList n ∧ IntRange.signed64.contains n = true := by
  unfold headerInt?
  refine Option.bind_eq_some_iff.trans ?_
  refine exists_congr fun text => and_congr_right fun _ => ?_
  rw [readInt?_eq_some_iff, readIntChars_signed_eq_ok_iff (by decide) (by decide)]

theorem trim_showInt (n : Int) : trim (showInt n) = showInt n := by
  unfold trim
  rw [trimChars_of_ends (fun c hc => isBlank_of_mem_showInt c (List.mem_of_head? hc))
    fun c hc => isBlank_of_mem_showInt c (List.mem_of_getLast? hc), String.ofList_toList]

/-- A number is read back from the text of a packet, whatever was changed besides since it was written. -/
theorem headerInt?_setInt_parse {p : Packet} {h : HeaderName} {n : Int} (hn : IntRange.signed64.contains n = true)
    {cs : List Change} (hcs : ∀ c ∈ cs, c.Spares h.text) (hk : (cs.foldl apply (p.setInt h n)).KeepsHeaders) :
    ∃ r, parse (cs.foldl apply (p.setInt h n)).toOctets = .ok r ∧ r.headerInt? h.text = some n := by
  obtain ⟨r, hr, hkept⟩ := hk.parse_toOctets
  have hvalue : (cs.foldl apply (p.setInt h n)).header? h.text = some (showInt n) :=
    (header?_foldl_apply hcs _).trans (header?_setHeader p h.text (showInt n))
  refine ⟨r, hr, headerInt?_eq_some_iff.2 ⟨showInt n, hkept _ _ hvalue, ?_, hn⟩⟩
  rw [trim_showInt]
  exact denotes_showInt n

end Packet

end Upnp.Ssdp
