import Upnp.Proofs.Decimal.Integer
import Upnp.Proofs.Ssdp.Building

/-
Responses on the wire. A packet whose tokens hold blanks is read back with its first line cut at them, and
otherwise as it was written. A response holds its reason in one token: it is read back with its status and
its headers, and as itself just where the reason is a single word.
-/

namespace Upnp.Ssdp

open Upnp.Text Upnp.Decimal

namespace Packet

/-! ## First lines with blanks -/

/-- Every line of the packet is written as one line; only the tokens of its first one may hold blanks. -/
structure Lined (p : Packet) : Prop where
  token : ∀ t ∈ p.firstLine, ¬ lineEnd <:+: t.toList
  entry : ∀ h ∈ p.headers, FitForLine h
  unsent : p.Unsent

/-- The words of the first line. -/
def words (p : Packet) : List String :=
  (splitAll [' '] p.firstLineChars).map String.ofList

theorem firstLineChars_words (p : Packet) : firstLineChars { p with firstLine := p.words } = p.firstLineChars := by
  have hpieces := intercalate_splitAll (List.cons_ne_nil ' ' []) p.firstLineChars
  have hmap : p.words.map String.toList = splitAll [' '] p.firstLineChars := by
    rw [words, List.map_map]
    exact List.map_id'' (fun _ => String.toList_ofList) _
  rw [firstLineChars, hmap, hpieces]

theorem Lined.fit_words {p : Packet} (h : p.Lined) : FitForWire { p with firstLine := p.words } where
  line := fun he => splitAll_ne_nil _ _ (List.map_eq_nil_iff.1 he)
  token := fun t ht => by
    obtain ⟨cs, hcs, rfl⟩ := List.mem_map.1 ht
    rw [String.toList_ofList]
    exact ⟨not_infix_of_mem_splitAll (List.cons_ne_nil _ _) cs hcs,
      fun hi => not_lineEnd_firstLineChars h.token (hi.trans (infix_of_mem_splitAll (List.cons_ne_nil _ _) cs hcs))⟩
  entry := h.entry
  headers := h.unsent.headers
  sender := h.unsent.sender
  interface := h.unsent.interface

/-- A packet is read back with the words of its first line as tokens. -/
theorem Lined.parse_toOctets {p : Packet} (h : p.Lined) : parse p.toOctets = .ok { p with firstLine := p.words } := by
  have htext : p.toText = toText { p with firstLine := p.words } := by
    rw [← String.toList_inj, toText_toList, toText_toList, firstLineChars_words]
    rfl
  unfold toOctets
  rw [htext]
  exact parse_toOctets_of_fit h.fit_words

theorem Lined.setHeader {p : Packet} (h : p.Lined) {name value : String} (hf : FitForLine (name, value)) :
    (p.setHeader name value).Lined where
  token := h.token
  entry := fun e he => by
    rcases Headers.eq_or_mem_of_mem_put he with rfl | he
    · exact hf.upperAscii
    · exact h.entry e he
  unsent := h.unsent.setHeader name value

theorem Lined.setFirstLine {p : Packet} (h : p.Lined) {tokens : List String}
    (ht : ∀ t ∈ tokens, ¬ lineEnd <:+: t.toList) : (p.setFirstLine tokens).Lined where
  token := ht
  entry := h.entry
  unsent := h.unsent.setFirstLine tokens

/-! ## Values of known headers -/

theorem text_fit (h : HeaderName) :
    h.text ≠ "" ∧ ¬ lineEnd <:+: h.text.toList ∧ ¬ [':', ' '] <:+: h.text.toList := by
  cases h <;> decide

theorem fitForLine_known (h : HeaderName) {value : String} (hl : ¬ lineEnd <:+: value.toList)
    (hb : dropBlanks value.toList = value.toList) : FitForLine (h.text, value) where
  named := (text_fit h).1
  name_line := (text_fit h).2.1
  name_cut := (text_fit h).2.2
  value_line := hl
  value_trimmed := hb

theorem sign_or_digit_of_mem_showInt {n : Int} : ∀ c ∈ (showInt n).toList, c = '-' ∨ c.isDigit = true := by
  intro c hc
  cases n with
  | ofNat n => exact .inr (isDigit_of_mem_showInt c hc)
  | negSucc n =>
    rw [showInt_negSucc_toList, List.mem_cons] at hc
    exact hc.imp id ((isDigits_toDigits (n + 1)).2 c)

theorem isBlank_of_mem_showInt {n : Int} : ∀ c ∈ (showInt n).toList, isBlank c = false := by
  intro c hc
  rcases sign_or_digit_of_mem_showInt c hc with rfl | hd
  · decide
  · exact isBlank_of_isDigit hd

/-- A number can stand under any known header. -/
theorem fitForLine_number (h : HeaderName) (n : Int) : FitForLine (h.text, showInt n) := by
  refine fitForLine_known h (fun hi => ?_) (dropWhile_of_head fun c hc => ?_)
  · have hreturn := sign_or_digit_of_mem_showInt '\r' (hi.subset (by decide))
    exact absurd hreturn (by decide)
  · exact isBlank_of_mem_showInt c (List.mem_of_mem_head? hc)

/-! ## Responses -/

/-- The responses that come of one to a server by new statuses and by headers that are fit for a line,
each with its last status. -/
inductive Answer : Nat → Packet → Prop
  | new {server date : String} (hs : FitForLine (HeaderName.server.text, server))
    (hd : FitForLine (HeaderName.date.text, date)) : Answer 200 (response server date)
  | status {last : Nat} {r : Packet} (h : Answer last r) {code : Nat} (hc : code ≤ 65535) : Answer code (r.setStatus code)
  | header {code : Nat} {r : Packet} (h : Answer code r) {name value : String} (hf : FitForLine (name, value)) :
    Answer code (r.setHeader name value)

theorem Answer.setInt {code : Nat} {r : Packet} (h : Answer code r) (name : HeaderName) (n : Int) :
    Answer code (r.setInt name n) :=
  h.header (fitForLine_number name n)

theorem Answer.code_le {code : Nat} {r : Packet} (h : Answer code r) : code ≤ 65535 := by
  induction h with
  | new => decide
  | status _ hc => exact hc
  | header _ _ ih => exact ih

theorem Answer.firstLine {code : Nat} {r : Packet} (h : Answer code r) :
    r.firstLine = [httpVersion, showInt code, reason code] := by
  induction h with
  | new => rfl
  | status => rfl
  | header _ _ ih => exact ih

/-- The reason for a status is a single word, or none at all, but for three of them. -/
theorem reason_eq {code : Nat} (h : code ≠ 400 ∧ code ≠ 404 ∧ code ≠ 500) : reason code = if code = 200 then "OK" else "" := by
  unfold reason
  split <;> simp_all

theorem not_lineEnd_statusLine (code : Nat) :
    ∀ t ∈ [httpVersion, showInt code, reason code], ¬ lineEnd <:+: t.toList := by
  simp only [List.forall_mem_cons]
  refine ⟨by decide, (fitForLine_number .ext code).value_line, ?_, fun _ h => absurd h List.not_mem_nil⟩
  unfold reason
  split <;> decide

theorem Answer.lined {code : Nat} {r : Packet} (h : Answer code r) : r.Lined := by
  induction h with
  | new hs hd =>
    have hempty : ({} : Packet).Lined := ⟨by simp, by simp, Headers.Normal.nil, rfl, rfl⟩
    have hext : FitForLine (HeaderName.ext.text, "") := fitForLine_known .ext (by decide) rfl
    exact (((hempty.setFirstLine (not_lineEnd_statusLine 200)).setHeader hs).setHeader hext).setHeader hd
  | status _ _ ih => exact ih.setFirstLine (not_lineEnd_statusLine _)
  | header _ hf ih => exact ih.setHeader hf

/-- The first line of a response is read back as version, status and the words of the reason. -/
theorem Answer.words_eq {code : Nat} {r : Packet} (h : Answer code r) :
    r.words = httpVersion :: showInt code :: splitText " " (reason code) := by
  have hstatus : ¬ [' '] <:+: (showInt code).toList := fun hi => by
    rcases sign_or_digit_of_mem_showInt ' ' ((List.singleton_infix_iff ' ' _).1 hi) with he | he
    · exact absurd he (by decide)
    · exact absurd he (by decide)
  have hchars : r.firstLineChars =
      httpVersion.toList ++ ([' '] ++ ((showInt code).toList ++ ([' '] ++ (reason code).toList))) := by
    rw [firstLineChars, h.firstLine]
    simp [List.intercalate_cons_cons]
  rw [words, hchars, splitAll_append (unbordered_singleton ' ') (List.cons_ne_nil _ _) (by decide),
    splitAll_append (unbordered_singleton ' ') (List.cons_ne_nil _ _) hstatus, List.map_cons, List.map_cons,
    String.ofList_toList, String.ofList_toList]
  rfl

theorem status_of_firstLine {p : Packet} {code : Nat} {rest : List String} (hc : code ≤ 65535)
    (h : p.firstLine = httpVersion :: showInt code :: rest) : p.status = code := by
  have hread : readInt? .unsigned16 (showInt code) = some (code : Int) := by
    unfold readInt? readInt
    rw [readIntChars_showInt (r := .unsigned16) (by show (code : Int) ≤ 65535; omega)]
    rfl
  unfold status
  rw [h]
  simp [hread]

/-- Responses over the wire: what is read back has the status and the headers of the response, no sender
and no interface, and the words of the reason as tokens; it is the response itself just if its status is
none of the three whose reason has more than one word. -/
theorem Answer.readBack_iff {code : Nat} {r : Packet} (h : Answer code r) :
    r.status = code ∧
    (∃ q, parse r.toOctets = .ok q ∧ q.status = code ∧ q.headers = r.headers ∧ q.sender = none ∧ q.interface = none ∧
      q.firstLine = httpVersion :: showInt code :: splitText " " (reason code)) ∧
    (parse r.toOctets = .ok r ↔ code ≠ 400 ∧ code ≠ 404 ∧ code ≠ 500) := by
  have hread := h.lined.parse_toOctets
  have hself : parse r.toOctets = .ok r ↔ splitText " " (reason code) = [reason code] := by
    rw [hread]
    constructor
    · intro he
      have hline := congrArg Packet.firstLine (Except.ok.inj he)
      simp only [h.words_eq, h.firstLine, List.cons.injEq, true_and] at hline
      exact hline
    · intro he
      have hline : r.words = r.firstLine := by rw [h.words_eq, h.firstLine, he]
      rw [hline]
  refine ⟨status_of_firstLine h.code_le h.firstLine, ⟨_, hread, status_of_firstLine h.code_le h.words_eq, rfl,
    h.lined.unsent.sender, h.lined.unsent.interface, h.words_eq⟩, hself.trans ⟨fun he => ?_, fun hc => ?_⟩⟩
  · refine ⟨?_, ?_, ?_⟩
    all_goals
      rintro rfl
      exact absurd he (by decide)
  · rw [reason_eq hc]
    split <;> decide

/-- The answer of a lamp, with a colon at the end of a name and a negative number. -/
def lampAnswer : Packet :=
  ((response "Linux/6.1 UPnP/1.1 lamp/1.0" "Thu, 01 Jan 1970 00:00:00 GMT").setHeader "x:" "a: b").setInt .bootId (-1)

theorem answer_lampAnswer : Answer 200 lampAnswer :=
  ((Answer.new ⟨by decide, by decide, by decide, by decide, rfl⟩ ⟨by decide, by decide, by decide, by decide, rfl⟩).header
    ⟨by decide, by decide, by decide, by decide, rfl⟩).setInt .bootId (-1)

theorem Answer.readBack_iff_lamp :
    Answer 206 (lampAnswer.setStatus 206) ∧
    parse (lampAnswer.setStatus 206).toOctets = .ok (lampAnswer.setStatus 206) ∧
    Answer 400 (lampAnswer.setStatus 400) ∧
    ∃ q, parse (lampAnswer.setStatus 400).toOctets = .ok q ∧ q.status = 400 ∧
      q.firstLine = ["HTTP/1.1", "400", "Bad", "Request"] := by
  have hpartial : Answer 206 (lampAnswer.setStatus 206) := answer_lampAnswer.status (by decide)
  have hbad : Answer 400 (lampAnswer.setStatus 400) := answer_lampAnswer.status (by decide)
  obtain ⟨-, -, hself⟩ := Answer.readBack_iff hpartial
  obtain ⟨-, ⟨q, hq, hstatus, -, -, -, hline⟩, -⟩ := Answer.readBack_iff hbad
  exact ⟨hpartial, hself.2 (by decide), hbad, q, hq, hstatus, hline.trans (by decide)⟩

/-- The answer that nothing was found is not read back as itself. -/
theorem notFound_read_otherwise :
    parse (lampAnswer.setStatus 404).toOctets ≠ .ok (lampAnswer.setStatus 404) := fun he => by
  have h : Answer 404 (lampAnswer.setStatus 404) := answer_lampAnswer.status (by decide)
  rw [h.lined.parse_toOctets] at he
  have hline := congrArg Packet.firstLine (Except.ok.inj he)
  rw [h.firstLine] at hline
  exact absurd (h.words_eq.symm.trans hline) (by decide)

end Packet

end Upnp.Ssdp
