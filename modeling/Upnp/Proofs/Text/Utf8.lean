import Upnp.Text.Utf8

/-
Encoding and decoding are inverse on text, for the strict decoder and for the replacing one. On
octets that need not be UTF-8 the replacing decoder works between ASCII octets independently: each
of them ends whatever character is under way and stands for itself, and no other octets yield an
ASCII character.
-/

namespace Upnp.Text.Utf8

/-! ## Lead octets -/

theorem toNat_ofNat_octet {n : Nat} (h : n < 256) : (UInt8.ofNat n).toNat = n := by
  rw [UInt8.toNat_ofNat']
  exact Nat.mod_eq_of_lt h

theorem lead_ascii {n : Nat} (h : n < 0x80) :
    lead (UInt8.ofNat n) = .inl (.scalar (Char.ofNat n)) := by
  simp only [lead, toNat_ofNat_octet (show n < 256 by omega)]
  rw [if_pos h]

theorem lead_two : ∀ m < 32, 2 ≤ m →
    lead (UInt8.ofNat (0xC0 + m)) = .inr ⟨1, 0x80, 0xBF, m, 1⟩ := by
  decide

theorem lead_three : ∀ m < 16, lead (UInt8.ofNat (0xE0 + m)) =
    .inr ⟨2, if m = 0 then 0xA0 else 0x80, if m = 0xD then 0x9F else 0xBF, m, 1⟩ := by
  decide

theorem lead_four : ∀ m < 5, lead (UInt8.ofNat (0xF0 + m)) =
    .inr ⟨3, if m = 0 then 0x90 else 0x80, if m = 4 then 0x8F else 0xBF, m, 1⟩ := by
  decide

/-! ## Characters -/

theorem piecesFrom_lead {b : UInt8} {p : Pending} (bs : Octets) (h : lead b = .inr p) :
    piecesFrom none (b :: bs) = piecesFrom (some p) bs := by
  simp only [piecesFrom, h]

/-- The last octet of a character. -/
theorem piecesFrom_last {p : Pending} {k : Nat} (bs : Octets) (ho : p.owed = 1) (hk : k < 64)
    (hl : p.low ≤ 0x80 + k) (hh : 0x80 + k ≤ p.high) :
    piecesFrom (some p) (UInt8.ofNat (0x80 + k) :: bs) =
      .scalar (Char.ofNat (p.bits * 64 + k)) :: piecesFrom none bs := by
  have hm : (0x80 + k) % 64 = k := by omega
  simp only [piecesFrom, toNat_ofNat_octet (show 0x80 + k < 256 by omega), hm]
  rw [if_pos ⟨hl, hh⟩, if_pos ho]

/-- An octet of a character that is neither its first nor its last. -/
theorem piecesFrom_more {p : Pending} {k : Nat} (bs : Octets) (ho : p.owed ≠ 1) (hk : k < 64)
    (hl : p.low ≤ 0x80 + k) (hh : 0x80 + k ≤ p.high) :
    piecesFrom (some p) (UInt8.ofNat (0x80 + k) :: bs) =
      piecesFrom (some ⟨p.owed - 1, 0x80, 0xBF, p.bits * 64 + k, p.size + 1⟩) bs := by
  have hm : (0x80 + k) % 64 = k := by omega
  simp only [piecesFrom, toNat_ofNat_octet (show 0x80 + k < 256 by omega), hm]
  rw [if_pos ⟨hl, hh⟩, if_neg ho]

theorem char_toNat_bounds (c : Char) :
    c.toNat < 0xD800 ∨ (0xDFFF < c.toNat ∧ c.toNat < 0x110000) :=
  c.valid

/-- An encoded character is one piece, whatever stands behind it. -/
theorem piecesFrom_encodeChar (c : Char) (bs : Octets) :
    piecesFrom none (encodeChar c ++ bs) = .scalar c :: piecesFrom none bs := by
  have hc : Char.ofNat c.toNat = c := Char.ofNat_toNat c
  have hv := char_toNat_bounds c
  unfold encodeChar
  generalize c.toNat = n at hc hv
  simp only
  -- one case for each length; `omega` puts the bits of the octets together again
  split
  · rename_i h
    simp only [List.cons_append, List.nil_append, piecesFrom, lead_ascii h, hc]
  split
  · simp only [List.cons_append, List.nil_append]
    rw [piecesFrom_lead _ (lead_two (n / 64) (by omega) (by omega)),
      piecesFrom_last _ rfl (by omega) (by simp only; omega) (by simp only; omega)]
    simp only [show n / 64 * 64 + n % 64 = n by omega, hc]
  split
  · simp only [List.cons_append, List.nil_append]
    rw [piecesFrom_lead _ (lead_three (n / 4096) (by omega)),
      piecesFrom_more _ (by simp) (by omega) (by simp only; split <;> omega)
        (by simp only; split <;> omega),
      piecesFrom_last _ rfl (by omega) (by simp only; omega) (by simp only; omega)]
    simp only [show (n / 4096 * 64 + n / 64 % 64) * 64 + n % 64 = n by omega, hc]
  · simp only [List.cons_append, List.nil_append]
    rw [piecesFrom_lead _ (lead_four (n / 262144) (by omega)),
      piecesFrom_more _ (by simp) (by omega) (by simp only; split <;> omega)
        (by simp only; split <;> omega),
      piecesFrom_more _ (by simp) (by omega) (by simp only; omega) (by simp only; omega),
      piecesFrom_last _ rfl (by omega) (by simp only; omega) (by simp only; omega)]
    simp only [show ((n / 262144 * 64 + n / 4096 % 64) * 64 + n / 64 % 64) * 64 + n % 64 = n by omega, hc]

theorem encodeChars_cons (c : Char) (cs : List Char) :
    encodeChars (c :: cs) = encodeChar c ++ encodeChars cs :=
  List.flatMap_cons

theorem encodeChars_append (cs ds : List Char) :
    encodeChars (cs ++ ds) = encodeChars cs ++ encodeChars ds :=
  List.flatMap_append

theorem encodeChars_intercalate (sep : List Char) : ∀ ls : List (List Char),
    encodeChars (sep.intercalate ls) = (encodeChars sep).intercalate (ls.map encodeChars)
  | [] => rfl
  | [l] => by
    rw [List.map_singleton, List.intercalate_singleton, List.intercalate_singleton]
  | l :: m :: ls => by
    have ih := encodeChars_intercalate sep (m :: ls)
    rw [List.map_cons] at ih
    rw [List.map_cons, List.map_cons, List.intercalate_cons_cons, List.intercalate_cons_cons, encodeChars_append,
      encodeChars_append, ih]

theorem encodeChar_ne_nil (c : Char) : encodeChar c ≠ [] := by
  unfold encodeChar
  simp only
  repeat' split
  all_goals exact List.cons_ne_nil _ _

theorem eq_nil_of_encodeChars {cs : List Char} (h : encodeChars cs = []) : cs = [] := by
  cases cs with
  | nil => rfl
  | cons c cs =>
    rw [encodeChars_cons, List.append_eq_nil_iff] at h
    exact absurd h.1 (encodeChar_ne_nil c)

/-- Encoded text is one piece for each character, whatever stands behind it. -/
theorem pieces_encodeChars_append (cs : List Char) (bs : Octets) :
    pieces (encodeChars cs ++ bs) = cs.map .scalar ++ pieces bs := by
  induction cs with
  | nil => rfl
  | cons c cs ih =>
    rw [encodeChars_cons, List.append_assoc, pieces, piecesFrom_encodeChar]
    exact congrArg (.scalar c :: ·) ih

theorem pieces_encodeChars (cs : List Char) : pieces (encodeChars cs) = cs.map .scalar := by
  have h := pieces_encodeChars_append cs []
  rw [List.append_nil] at h
  rw [h]
  exact List.append_nil _

/-! ## Text -/

theorem collect_scalars (pos : Nat) (cs : List Char) : collect pos (cs.map .scalar) = .ok cs := by
  induction cs generalizing pos with
  | nil => rfl
  | cons c cs ih => rw [List.map_cons, collect, ih]; rfl

/-- The strict decoder undoes encoding. -/
theorem decodeChars_encodeChars (cs : List Char) : decodeChars (encodeChars cs) = .ok cs := by
  unfold decodeChars
  rw [pieces_encodeChars, collect_scalars]

theorem decode_encode (s : String) : decode (encode s) = .ok s := by
  unfold decode encode
  rw [decodeChars_encodeChars, Except.map, String.ofList_toList]

/-- The marking decoder undoes encoding, whatever stands behind the text. -/
theorem decodeMarking_encodeChars_append (mark : Char) (cs : List Char) (bs : Octets) :
    decodeMarking mark (encodeChars cs ++ bs) = cs ++ decodeMarking mark bs := by
  unfold decodeMarking
  rw [pieces_encodeChars_append, List.map_append, List.map_map]
  exact congrArg (· ++ _) (List.map_id cs)

theorem decodeMarking_encodeChars (mark : Char) (cs : List Char) :
    decodeMarking mark (encodeChars cs) = cs := by
  have h := decodeMarking_encodeChars_append mark cs []
  rw [List.append_nil] at h
  rw [h]
  exact List.append_nil _

/-- The replacing decoder undoes encoding. -/
theorem decodeLossyChars_encodeChars (cs : List Char) : decodeLossyChars (encodeChars cs) = cs :=
  decodeMarking_encodeChars replacement cs

theorem decodeLossy_encode (s : String) : decodeLossy (encode s) = s := by
  unfold decodeLossy encode
  rw [decodeLossyChars_encodeChars, String.ofList_toList]

/-! ## ASCII octets in octets that need not be text -/

/-- What holds of every character under way: the bounds on its next octet exclude ASCII, and the
octets still owed make it no ASCII character. -/
structure Pending.Proper (p : Pending) : Prop where
  low : 0x80 ≤ p.low
  high : p.high ≤ 0xBF
  bits : 2 ≤ p.bits ∨ (p.owed ≠ 1 ∧ (1 ≤ p.bits ∨ 0x90 ≤ p.low))

theorem lead_proper {b : UInt8} {p : Pending} (h : lead b = .inr p) : p.Proper := by
  unfold lead at h
  simp only at h
  repeat' split at h
  all_goals cases h
  all_goals constructor <;> simp only <;> omega

/-- A character under way stays proper when it takes an octet within its bounds. -/
theorem Pending.Proper.next {p : Pending} (hp : p.Proper) {n : Nat} (hl : p.low ≤ n) (hh : n ≤ p.high) :
    Pending.Proper ⟨p.owed - 1, 0x80, 0xBF, p.bits * 64 + n % 64, p.size + 1⟩ := by
  obtain ⟨h1, h2, h3⟩ := hp
  constructor <;> simp only <;> omega

theorem toNat_ofNat_char {n : Nat} (h : n.isValidChar) : (Char.ofNat n).toNat = n := by
  unfold Char.ofNat
  rw [dif_pos h]
  rfl

/-- A number that is none of a character stands for NUL. -/
theorem toNat_ofNat_char_or (n : Nat) : (Char.ofNat n).toNat = n ∨ (Char.ofNat n).toNat = 0 := by
  by_cases h : n.isValidChar
  · exact .inl (toNat_ofNat_char h)
  · unfold Char.ofNat
    rw [dif_neg h]
    exact .inr rfl

/-- The octet of an ASCII character that a lead octet makes. -/
theorem lead_scalar {b : UInt8} {c : Char} (h : lead b = .inl (.scalar c)) : b.toNat = c.toNat := by
  unfold lead at h
  simp only at h
  split at h
  · rename_i hn
    cases h
    exact (toNat_ofNat_char (.inl (by omega))).symm
  · repeat' split at h
    all_goals simp at h

/-- An octet out of bounds ends the character under way and starts anew. -/
theorem piecesFrom_out {p : Pending} {b : UInt8} (bs : Octets)
    (h : ¬ (p.low ≤ b.toNat ∧ b.toNat ≤ p.high)) :
    piecesFrom (some p) (b :: bs) = .invalid p.size :: piecesFrom none (b :: bs) := by
  simp only [piecesFrom]
  rw [if_neg h]

/-- Among the octets is that of an ASCII character, and those on either side of it are decoded by
themselves. -/
def StandsIn (mark c : Char) (q : Option Pending) (bs : Octets) (xs ys : List Char) : Prop :=
  ∃ as b cs, bs = as ++ b :: cs ∧ b.toNat = c.toNat ∧ (piecesFrom q as).map (Piece.toChar mark) = xs ∧
    decodeMarking mark cs = ys

theorem StandsIn.piece {mark c : Char} {q : Option Pending} {b : UInt8} {bs : Octets} {xs ys : List Char}
    {piece : Piece} (hstep : ∀ l, piecesFrom q (b :: l) = piece :: piecesFrom none l)
    (h : StandsIn mark c none bs xs ys) : StandsIn mark c q (b :: bs) (piece.toChar mark :: xs) ys := by
  obtain ⟨as, b', cs, rfl, hb, rfl, hcs⟩ := h
  exact ⟨b :: as, b', cs, rfl, hb, by rw [hstep, List.map_cons], hcs⟩

theorem StandsIn.more {mark c : Char} {q r : Option Pending} {b : UInt8} {bs : Octets} {xs ys : List Char}
    (hstep : ∀ l, piecesFrom q (b :: l) = piecesFrom r l) (h : StandsIn mark c r bs xs ys) :
    StandsIn mark c q (b :: bs) xs ys := by
  obtain ⟨as, b', cs, rfl, hb, rfl, hcs⟩ := h
  exact ⟨b :: as, b', cs, rfl, hb, by rw [hstep], hcs⟩

theorem StandsIn.out {mark c : Char} {p : Pending} {b : UInt8} {bs : Octets} {xs ys : List Char}
    (hout : ¬ (p.low ≤ b.toNat ∧ b.toNat ≤ p.high)) (h : StandsIn mark c none (b :: bs) xs ys) :
    StandsIn mark c (some p) (b :: bs) (mark :: xs) ys := by
  obtain ⟨as, b', cs, hbs, hb, rfl, hcs⟩ := h
  refine ⟨as, b', cs, hbs, hb, ?_, hcs⟩
  cases as with
  | nil => rfl
  | cons a as =>
    rw [List.cons_append, List.cons.injEq] at hbs
    obtain ⟨rfl, -⟩ := hbs
    rw [piecesFrom_out as hout, List.map_cons]
    rfl

/-- Every ASCII character but NUL that comes out of the marking decoder comes from its own octet,
and the octets on either side are decoded by themselves. -/
theorem standsIn_of_piecesFrom {mark c : Char} (hm : 0x80 ≤ mark.toNat) (hc : c.toNat < 0x80) (h0 : c.toNat ≠ 0) :
    ∀ (bs : Octets) (q : Option Pending) (xs ys : List Char), (∀ p, q = some p → p.Proper) →
      (piecesFrom q bs).map (Piece.toChar mark) = xs ++ c :: ys → StandsIn mark c q bs xs ys
  | [], q, xs, ys, hq, h => by
    -- at most a character that is cut off is left, and its mark is not ASCII
    have hne : mark ≠ c := by rintro rfl; omega
    cases q with
    | none => simp [piecesFrom] at h
    | some p =>
      cases xs with
      | nil => simp [piecesFrom, Piece.toChar, hne] at h
      | cons x xs => simp [piecesFrom] at h
  | b :: bs, none, xs, ys, hq, h => by
    have hne : mark ≠ c := by rintro rfl; omega
    cases hl : lead b with
    | inr p =>
      rw [piecesFrom_lead bs hl] at h
      exact (standsIn_of_piecesFrom hm hc h0 bs (some p) xs ys (by rintro _ ⟨⟩; exact lead_proper hl) h).more
        fun l => piecesFrom_lead l hl
    | inl piece =>
      have hstep : ∀ l, piecesFrom none (b :: l) = piece :: piecesFrom none l := by
        intro l; simp only [piecesFrom, hl]
      rw [hstep, List.map_cons] at h
      cases xs with
      | nil =>
        obtain ⟨h1, h2⟩ := List.cons.inj h
        refine ⟨[], b, bs, rfl, ?_, rfl, h2⟩
        cases piece with
        | scalar c' => exact (lead_scalar hl).trans (by rw [← h1]; rfl)
        | invalid n => exact absurd h1 hne
        | truncated n => exact absurd h1 hne
      | cons x xs =>
        obtain ⟨rfl, h2⟩ := List.cons.inj h
        exact (standsIn_of_piecesFrom hm hc h0 bs none xs ys (by simp) h2).piece hstep
  | b :: bs, some p, xs, ys, hq, h => by
    have hne : mark ≠ c := by rintro rfl; omega
    have hp := hq p rfl
    by_cases hin : p.low ≤ b.toNat ∧ b.toNat ≤ p.high
    · by_cases ho : p.owed = 1
      · have hstep : ∀ l, piecesFrom (some p) (b :: l) =
            .scalar (Char.ofNat (p.bits * 64 + b.toNat % 64)) :: piecesFrom none l := by
          intro l; simp only [piecesFrom]; rw [if_pos hin, if_pos ho]
        rw [hstep, List.map_cons] at h
        cases xs with
        | nil =>
          -- the last octet makes no ASCII character, as the bits so far are too many
          obtain ⟨rfl, -⟩ := List.cons.inj h
          have hbits := hp.bits
          have hchar := toNat_ofNat_char_or (p.bits * 64 + b.toNat % 64)
          simp only [Piece.toChar] at hc h0
          omega
        | cons x xs =>
          obtain ⟨rfl, h2⟩ := List.cons.inj h
          exact (standsIn_of_piecesFrom hm hc h0 bs none xs ys (by simp) h2).piece hstep
      · have hstep : ∀ l, piecesFrom (some p) (b :: l) =
            piecesFrom (some ⟨p.owed - 1, 0x80, 0xBF, p.bits * 64 + b.toNat % 64, p.size + 1⟩) l := by
          intro l; simp only [piecesFrom]; rw [if_pos hin, if_neg ho]
        rw [hstep] at h
        exact (standsIn_of_piecesFrom hm hc h0 bs _ xs ys (by rintro _ ⟨⟩; exact hp.next hin.1 hin.2) h).more hstep
    · rw [piecesFrom_out bs hin, List.map_cons] at h
      cases xs with
      | nil => exact absurd (List.cons.inj h).1 hne
      | cons x xs =>
        -- the same octet is read once more with nothing under way, so the measure counts that too
        obtain ⟨rfl, h2⟩ := List.cons.inj h
        exact (standsIn_of_piecesFrom hm hc h0 (b :: bs) none xs ys (by simp) h2).out hin
termination_by bs q => 2 * bs.length + q.toList.length

theorem decodeMarking_ascii {mark c : Char} {bs : Octets} {xs ys : List Char} (hm : 0x80 ≤ mark.toNat)
    (hc : c.toNat < 0x80) (h0 : c.toNat ≠ 0) (h : decodeMarking mark bs = xs ++ c :: ys) :
    ∃ as b cs, bs = as ++ b :: cs ∧ b.toNat = c.toNat ∧ decodeMarking mark as = xs ∧
      decodeMarking mark cs = ys :=
  standsIn_of_piecesFrom hm hc h0 bs none xs ys (by simp) h

/-- An ASCII octet stands for itself, and the octets on either side are decoded by themselves. -/
theorem piecesFrom_append_ascii {mark : Char} {b : UInt8} (hb : b.toNat < 0x80) (cs : Octets) :
    ∀ (as : Octets) (q : Option Pending), (∀ p, q = some p → p.Proper) →
      (piecesFrom q (as ++ b :: cs)).map (Piece.toChar mark) =
        (piecesFrom q as).map (Piece.toChar mark) ++ Char.ofNat b.toNat :: decodeMarking mark cs
  | [], none, _ => by
    have hl : lead b = .inl (.scalar (Char.ofNat b.toNat)) := by
      rw [← lead_ascii hb, UInt8.ofNat_toNat]
    simp only [List.nil_append, piecesFrom, hl]
    rfl
  | [], some p, hq => by
    have := (hq p rfl).low
    rw [List.nil_append, piecesFrom_out cs (by omega), List.map_cons]
    exact congrArg (mark :: ·) (piecesFrom_append_ascii hb cs [] none (by simp))
  | a :: as, none, _ => by
    cases hl : lead a with
    | inr p =>
      rw [List.cons_append, piecesFrom_lead _ hl, piecesFrom_lead _ hl]
      exact piecesFrom_append_ascii hb cs as (some p) (by rintro _ ⟨⟩; exact lead_proper hl)
    | inl piece =>
      simp only [List.cons_append, piecesFrom, hl, List.map_cons]
      rw [piecesFrom_append_ascii hb cs as none (by simp)]
  | a :: as, some p, hq => by
    have hp := hq p rfl
    rw [List.cons_append]
    by_cases hin : p.low ≤ a.toNat ∧ a.toNat ≤ p.high
    · simp only [piecesFrom]
      rw [if_pos hin, if_pos hin]
      split
      · simp only [List.map_cons, List.cons_append]
        rw [piecesFrom_append_ascii hb cs as none (by simp)]
      · exact piecesFrom_append_ascii hb cs as _ (by rintro _ ⟨⟩; exact hp.next hin.1 hin.2)
    · rw [piecesFrom_out _ hin, piecesFrom_out _ hin, List.map_cons, List.map_cons, List.cons_append]
      exact congrArg (mark :: ·) (piecesFrom_append_ascii hb cs (a :: as) none (by simp))
termination_by as q => 2 * as.length + q.toList.length

theorem decodeMarking_append_ascii {mark : Char} {b : UInt8} (hb : b.toNat < 0x80) (as cs : Octets) :
    decodeMarking mark (as ++ b :: cs) =
      decodeMarking mark as ++ Char.ofNat b.toNat :: decodeMarking mark cs :=
  piecesFrom_append_ascii hb cs as none (by simp)

theorem piecesFrom_some_ne_nil (bs : Octets) (p : Pending) : piecesFrom (some p) bs ≠ [] := by
  induction bs generalizing p with
  | nil => simp [piecesFrom]
  | cons b bs ih =>
    simp only [piecesFrom]
    split
    · split
      · simp
      · exact ih _
    · simp

theorem eq_nil_of_decodeMarking {mark : Char} {bs : Octets} (h : decodeMarking mark bs = []) : bs = [] := by
  cases bs with
  | nil => rfl
  | cons b bs =>
    unfold decodeMarking pieces at h
    rw [List.map_eq_nil_iff] at h
    simp only [piecesFrom] at h
    split at h
    · cases h
    · exact absurd h (piecesFrom_some_ne_nil bs _)

/-- ASCII characters other than NUL. -/
def IsAscii (c : Char) : Prop := c.toNat < 0x80 ∧ c.toNat ≠ 0

theorem encodeChar_ascii {c : Char} (h : IsAscii c) {b : UInt8} (hb : b.toNat = c.toNat) :
    encodeChar c = [b] := by
  unfold encodeChar
  simp only
  rw [if_pos h.1, ← hb, UInt8.ofNat_toNat]

/-- Text that begins with an ASCII character is decoded as it was written in the midst of any octets. -/
theorem decodeMarking_append_encodeChars {mark c : Char} (hc : IsAscii c) (as : Octets) (l : List Char) (cs : Octets) :
    decodeMarking mark (as ++ (encodeChars (c :: l) ++ cs)) =
      decodeMarking mark as ++ (c :: l ++ decodeMarking mark cs) := by
  have hb : (UInt8.ofNat c.toNat).toNat = c.toNat := toNat_ofNat_octet (by have := hc.1; omega)
  rw [encodeChars_cons, encodeChar_ascii hc hb, List.append_assoc, List.singleton_append,
    decodeMarking_append_ascii (by rw [hb]; exact hc.1), decodeMarking_encodeChars_append, hb, Char.ofNat_toNat,
    List.cons_append]

/-- ASCII text at the front of what the marking decoder gives stands at the front of the octets. -/
theorem decodeMarking_ascii_prefix {mark : Char} (hm : 0x80 ≤ mark.toNat) {l : List Char}
    (hl : ∀ c ∈ l, IsAscii c) {bs : Octets} {ys : List Char} (h : decodeMarking mark bs = l ++ ys) :
    ∃ cs, bs = encodeChars l ++ cs ∧ decodeMarking mark cs = ys := by
  induction l generalizing bs with
  | nil => exact ⟨bs, rfl, h⟩
  | cons c l ih =>
    have hc := hl c (List.mem_cons_self ..)
    obtain ⟨as, b, cs, rfl, hb, ha, hcs⟩ := decodeMarking_ascii hm hc.1 hc.2
      (show decodeMarking mark bs = [] ++ c :: (l ++ ys) from h)
    obtain ⟨ds, rfl, hds⟩ := ih (fun c hc => hl c (List.mem_cons_of_mem _ hc)) hcs
    refine ⟨ds, ?_, hds⟩
    rw [eq_nil_of_decodeMarking ha, encodeChars_cons, encodeChar_ascii hc hb]
    rfl

/-- ASCII text stands within what the marking decoder gives just if it stands within the octets. -/
theorem infix_decodeMarking_iff {mark : Char} (hm : 0x80 ≤ mark.toNat) {l : List Char}
    (hl : ∀ c ∈ l, IsAscii c) (bs : Octets) : l <:+: decodeMarking mark bs ↔ encodeChars l <:+: bs := by
  cases l with
  | nil => exact ⟨fun _ => List.nil_infix, fun _ => List.nil_infix⟩
  | cons c l =>
    have hc := hl c (List.mem_cons_self ..)
    have hl' : ∀ c ∈ l, IsAscii c := fun c hc => hl c (List.mem_cons_of_mem _ hc)
    constructor
    · rintro ⟨xs, ys, h⟩
      -- the first character is found by its octet, the others right behind it
      rw [List.append_assoc, List.cons_append] at h
      obtain ⟨as, b, cs, rfl, hb, -, hcs⟩ := decodeMarking_ascii hm hc.1 hc.2 h.symm
      obtain ⟨ds, rfl, -⟩ := decodeMarking_ascii_prefix hm hl' hcs
      refine ⟨as, ds, ?_⟩
      rw [encodeChars_cons, encodeChar_ascii hc hb]
      simp
    · rintro ⟨as, cs, rfl⟩
      rw [List.append_assoc, decodeMarking_append_encodeChars hc]
      exact ⟨decodeMarking mark as, decodeMarking mark cs, List.append_assoc ..⟩

/-- ASCII text stands within encoded text just if it stands within the text. -/
theorem encodeChars_infix_iff {l : List Char} (hl : ∀ c ∈ l, IsAscii c) (cs : List Char) :
    encodeChars l <:+: encodeChars cs ↔ l <:+: cs := by
  have h := infix_decodeMarking_iff (show 0x80 ≤ replacement.toNat by decide) hl (encodeChars cs)
  rw [decodeMarking_encodeChars] at h
  exact h.symm

end Upnp.Text.Utf8
