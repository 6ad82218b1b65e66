import Upnp.Decimal.Integer

/-
Decimal texts of integers. Digits are read from the left, so that reading goes on behind a part as from its
value; it gives the integer that an optional sign and digits denote, if that is in the range, and refuses
every other text, however many digits it has. The text of an integer in the range is read as the integer.
-/

namespace Upnp.Decimal

/-! ## Texts that denote integers -/

/-- Decimal digits, one at least. -/
def IsDigits (ds : List Char) : Prop :=
  ds ≠ [] ∧ ∀ c ∈ ds, c.isDigit = true

instance (ds : List Char) : Decidable (IsDigits ds) :=
  decidable_of_iff (ds ≠ [] ∧ ds.all Char.isDigit = true) (and_congr_right fun _ => List.all_eq_true)

/-- The text is an optional sign and decimal digits, and these denote the integer. -/
inductive Denotes : List Char → Int → Prop
  | plain {ds : List Char} (h : IsDigits ds) : Denotes ds (Nat.ofDigitChars 10 ds 0)
  | plus {ds : List Char} (h : IsDigits ds) : Denotes ('+' :: ds) (Nat.ofDigitChars 10 ds 0)
  | minus {ds : List Char} (h : IsDigits ds) : Denotes ('-' :: ds) (-(Nat.ofDigitChars 10 ds 0))

theorem isDigits_cons {c : Char} {ds : List Char} (h : IsDigits (c :: ds)) : c.isDigit = true :=
  h.2 c List.mem_cons_self

theorem IsDigits.head_ne {ds : List Char} (h : IsDigits ds) {c : Char} (hc : c.isDigit = false) : ds.head? ≠ some c :=
  fun he => Bool.eq_false_iff.1 hc (h.2 c (List.mem_of_mem_head? he))

theorem denotes_plus_iff {ds : List Char} {n : Int} :
    Denotes ('+' :: ds) n ↔ IsDigits ds ∧ n = Nat.ofDigitChars 10 ds 0 := by
  constructor
  · intro h
    cases h with
    | plain h => exact absurd (isDigits_cons h) (by decide)
    | plus h => exact ⟨h, rfl⟩
  · rintro ⟨h, rfl⟩
    exact .plus h

theorem denotes_minus_iff {ds : List Char} {n : Int} :
    Denotes ('-' :: ds) n ↔ IsDigits ds ∧ n = -(Nat.ofDigitChars 10 ds 0) := by
  constructor
  · intro h
    cases h with
    | plain h => exact absurd (isDigits_cons h) (by decide)
    | minus h => exact ⟨h, rfl⟩
  · rintro ⟨h, rfl⟩
    exact .minus h

theorem denotes_unsigned_iff {ds : List Char} (hp : ds.head? ≠ some '+') (hm : ds.head? ≠ some '-') {n : Int} :
    Denotes ds n ↔ IsDigits ds ∧ n = Nat.ofDigitChars 10 ds 0 := by
  constructor
  · intro h
    cases h with
    | plain h => exact ⟨h, rfl⟩
    | plus h => exact absurd rfl hp
    | minus h => exact absurd rfl hm
  · rintro ⟨h, rfl⟩
    exact .plain h

/-! ## Reading digits -/

theorem digit?_of_isDigit {c : Char} (h : c.isDigit = true) : digit? c = some (c.toNat - '0'.toNat) :=
  if_pos h

theorem digit?_of_not_isDigit {c : Char} (h : c.isDigit = false) : digit? c = none :=
  if_neg (Bool.eq_false_iff.1 h)

theorem le_ofDigitChars (n : Nat) (ds : List Char) : n ≤ Nat.ofDigitChars 10 ds n := by
  rw [Nat.ofDigitChars_eq_ofDigitChars_zero]
  exact Nat.le_trans (Nat.le_mul_of_pos_left n (Nat.pow_pos (by decide))) (Nat.le_add_right _ _)

/-- Reading upwards gives the number of the digits, if it is within the bound: a number that leaves the bound
on the way does not come back. -/
theorem readUp_eq_ok_iff {greatest n : Int} {acc : Nat} {cs : List Char} (ha : (acc : Int) ≤ greatest) :
    readUp greatest acc cs = .ok n ↔
      (∀ c ∈ cs, c.isDigit = true) ∧ n = Nat.ofDigitChars 10 cs acc ∧ n ≤ greatest := by
  induction cs generalizing acc with
  | nil =>
    rw [readUp, Except.ok.injEq, Nat.ofDigitChars_nil]
    constructor
    · rintro rfl
      exact ⟨by simp, rfl, ha⟩
    · rintro ⟨-, rfl, -⟩
      rfl
  | cons c cs ih =>
    rw [readUp, List.forall_mem_cons, Nat.ofDigitChars_cons]
    cases hc : c.isDigit with
    | false => simp [digit?_of_not_isDigit hc]
    | true =>
      have hnext : (acc : Int) * 10 + (c.toNat - '0'.toNat : Nat) = (10 * acc + (c.toNat - '0'.toNat) : Nat) := by
        omega
      simp only [digit?_of_isDigit hc, hnext, true_and]
      split
      · rename_i hle
        exact ih hle
      · rename_i hgt
        have hmore := le_ofDigitChars (10 * acc + (c.toNat - '0'.toNat)) cs
        refine ⟨fun h => ?_, ?_⟩
        · cases h
        rintro ⟨-, rfl, hle⟩
        omega

/-- What digits are read as, from the first of them. -/
theorem readUp_zero_eq_ok_iff {greatest n : Int} (h0 : 0 ≤ greatest) {ds : List Char} (hds : ds ≠ []) :
    readUp greatest 0 ds = .ok n ↔ (IsDigits ds ∧ n = Nat.ofDigitChars 10 ds 0) ∧ n ≤ greatest := by
  have hread : readUp greatest 0 ds = .ok n ↔
      (∀ c ∈ ds, c.isDigit = true) ∧ n = Nat.ofDigitChars 10 ds 0 ∧ n ≤ greatest := readUp_eq_ok_iff h0
  rw [hread, and_assoc]
  exact and_congr_left' ⟨fun h => ⟨hds, h⟩, fun h => h.2⟩

/-- Reading downwards mirrors reading upwards. -/
theorem readDown_eq_ok_iff {least n acc : Int} {cs : List Char} :
    readDown least acc cs = .ok n ↔ readUp (-least) (-acc) cs = .ok (-n) := by
  induction cs generalizing acc with
  | nil =>
    rw [readDown, readUp, Except.ok.injEq, Except.ok.injEq]
    omega
  | cons c cs ih =>
    rw [readDown, readUp]
    split
    · simp
    · rename_i d _
      have hnext : -acc * 10 + (d : Int) = -(acc * 10 - d) := by omega
      simp only [hnext, Int.neg_le_neg_iff]
      split
      · exact ih
      · simp

/-! ## Reading integers -/

variable {r : IntRange}

theorem readIntChars_plus {ds : List Char} (h : ds ≠ []) : readIntChars r ('+' :: ds) = readUp r.greatest 0 ds := by
  cases ds with
  | nil => exact absurd rfl h
  | cons => rfl

theorem readIntChars_minus {ds : List Char} (h : ds ≠ []) : readIntChars r ('-' :: ds) =
    if r.isSigned then readDown r.least 0 ds else .error .invalidDigit := by
  cases ds with
  | nil => exact absurd rfl h
  | cons => rfl

theorem readIntChars_unsigned {ds : List Char} (h : ds ≠ []) (hp : ds.head? ≠ some '+') (hm : ds.head? ≠ some '-') :
    readIntChars r ds = readUp r.greatest 0 ds := by
  unfold readIntChars
  split
  · exact absurd rfl h
  · exact absurd rfl hp
  · exact absurd rfl hm
  · exact absurd rfl hp
  · exact absurd rfl hm
  · rfl

theorem contains_iff {n : Int} : r.contains n = true ↔ r.least ≤ n ∧ n ≤ r.greatest := by
  unfold IntRange.contains
  rw [Bool.and_eq_true, decide_eq_true_eq, decide_eq_true_eq]

theorem readIntChars_plus_eq_ok_iff (h0 : 0 ≤ r.greatest) {ds : List Char} {n : Int} :
    readIntChars r ('+' :: ds) = .ok n ↔ (IsDigits ds ∧ n = Nat.ofDigitChars 10 ds 0) ∧ n ≤ r.greatest := by
  by_cases hds : ds = []
  · subst hds
    simp [readIntChars, IsDigits]
  · rw [readIntChars_plus hds, readUp_zero_eq_ok_iff h0 hds]

theorem readIntChars_minus_eq_ok_iff (h0 : r.least ≤ 0) {ds : List Char} {n : Int} :
    readIntChars r ('-' :: ds) = .ok n ↔
      (IsDigits ds ∧ n = -(Nat.ofDigitChars 10 ds 0)) ∧ r.least ≤ n ∧ r.isSigned = true := by
  by_cases hds : ds = []
  · subst hds
    simp [readIntChars, IsDigits]
  · rw [readIntChars_minus hds]
    split
    · rename_i hsigned
      rw [readDown_eq_ok_iff, Int.neg_zero, readUp_zero_eq_ok_iff (by omega) hds, Int.neg_le_neg_iff, Int.neg_eq_comm,
        eq_comm (a := -_), and_iff_left hsigned]
    · rename_i hsigned
      simp [hsigned]

theorem readIntChars_unsigned_eq_ok_iff (h0 : 0 ≤ r.greatest) {ds : List Char} (hp : ds.head? ≠ some '+')
    (hm : ds.head? ≠ some '-') {n : Int} :
    readIntChars r ds = .ok n ↔ (IsDigits ds ∧ n = Nat.ofDigitChars 10 ds 0) ∧ n ≤ r.greatest := by
  by_cases hds : ds = []
  · subst hds
    simp [readIntChars, IsDigits]
  · rw [readIntChars_unsigned hds hp hm, readUp_zero_eq_ok_iff h0 hds]

/-- Digits are read as their number, if it is within the bound. -/
theorem toOption_readIntChars_digits (h0 : 0 ≤ r.greatest) {ds : List Char} (h : IsDigits ds) :
    (readIntChars r ds).toOption = if (Nat.ofDigitChars 10 ds 0 : Int) ≤ r.greatest then
      some (Nat.ofDigitChars 10 ds 0 : Int) else none := by
  have hread := fun n => readIntChars_unsigned_eq_ok_iff (n := n) h0 (h.head_ne (c := '+') (by decide))
    (h.head_ne (c := '-') (by decide))
  split
  · rename_i hle
    rw [(hread _).2 ⟨⟨h, rfl⟩, hle⟩]
    rfl
  · rename_i hgt
    cases hr : readIntChars r ds with
    | error e => rfl
    | ok n =>
      obtain ⟨⟨-, rfl⟩, hle⟩ := (hread n).1 hr
      exact absurd hle hgt

/-- An integer is read just if the text denotes it and it is in the range; a minus sign is read where the range
has negative integers. -/
theorem readIntChars_eq_ok_iff (h0 : r.contains 0 = true) {cs : List Char} {n : Int} :
    readIntChars r cs = .ok n ↔
      Denotes cs n ∧ r.contains n = true ∧ (cs.head? = some '-' → r.isSigned = true) := by
  rw [contains_iff] at h0 ⊢
  by_cases hp : cs.head? = some '+'
  · obtain ⟨ds, rfl⟩ := List.head?_eq_some_iff.1 hp
    rw [readIntChars_plus_eq_ok_iff h0.2, denotes_plus_iff]
    constructor
    · rintro ⟨⟨hdigits, hn⟩, hle⟩
      exact ⟨⟨hdigits, hn⟩, ⟨by omega, hle⟩, by simp⟩
    · rintro ⟨h, ⟨-, hle⟩, -⟩
      exact ⟨h, hle⟩
  by_cases hm : cs.head? = some '-'
  · obtain ⟨ds, rfl⟩ := List.head?_eq_some_iff.1 hm
    rw [readIntChars_minus_eq_ok_iff h0.1, denotes_minus_iff]
    constructor
    · rintro ⟨⟨hdigits, hn⟩, hle, hsigned⟩
      exact ⟨⟨hdigits, hn⟩, ⟨hle, by omega⟩, fun _ => hsigned⟩
    · rintro ⟨h, ⟨hle, -⟩, hsigned⟩
      exact ⟨h, hle, hsigned rfl⟩
  · rw [readIntChars_unsigned_eq_ok_iff h0.2 hp hm, denotes_unsigned_iff hp hm]
    constructor
    · rintro ⟨⟨hdigits, hn⟩, hle⟩
      exact ⟨⟨hdigits, hn⟩, ⟨by omega, hle⟩, fun h => absurd h hm⟩
    · rintro ⟨h, ⟨-, hle⟩, -⟩
      exact ⟨h, hle⟩

/-- Where the range has negative integers, the sign makes no difference. -/
theorem readIntChars_signed_eq_ok_iff (h0 : r.contains 0 = true) (hs : r.isSigned = true) {cs : List Char} {n : Int} :
    readIntChars r cs = .ok n ↔ Denotes cs n ∧ r.contains n = true := by
  rw [readIntChars_eq_ok_iff h0]
  exact and_congr_right fun _ => and_iff_left fun _ => hs

theorem readInt?_eq_some_iff {s : String} {n : Int} : readInt? r s = some n ↔ readIntChars r s.toList = .ok n := by
  unfold readInt? readInt
  cases readIntChars r s.toList with
  | error e => simp [Except.toOption]
  | ok m => simp [Except.toOption]

/-! ## Texts of integers -/

theorem isDigits_toDigits (n : Nat) : IsDigits (Nat.toDigits 10 n) :=
  ⟨Nat.toDigits_ne_nil, fun _ hc => Nat.isDigit_of_mem_toDigits (by decide) (by decide) hc⟩

theorem showInt_ofNat_toList (n : Nat) : (showInt n).toList = Nat.toDigits 10 n :=
  String.toList_ofList

theorem showInt_negSucc_toList (n : Nat) : (showInt (.negSucc n)).toList = '-' :: Nat.toDigits 10 (n + 1) := by
  have hdigits : (showInt.showNat (n + 1)).toList = Nat.toDigits 10 (n + 1) := String.toList_ofList
  show ("-" ++ showInt.showNat (n + 1)).toList = _
  rw [String.toList_append, hdigits]
  rfl

theorem isDigit_of_mem_showInt {n : Nat} : ∀ c ∈ (showInt n).toList, c.isDigit = true := by
  rw [showInt_ofNat_toList]
  exact (isDigits_toDigits n).2

theorem showInt_toList_ne_nil (n : Nat) : (showInt n).toList ≠ [] := by
  rw [showInt_ofNat_toList]
  exact (isDigits_toDigits n).1

theorem denotes_showInt : ∀ n : Int, Denotes (showInt n).toList n
  | .ofNat n => by
    have h := Denotes.plain (isDigits_toDigits n)
    rwa [Nat.ofDigitChars_ten_toDigits, ← showInt_ofNat_toList] at h
  | .negSucc n => by
    have h := Denotes.minus (isDigits_toDigits (n + 1))
    rwa [Nat.ofDigitChars_ten_toDigits, ← showInt_negSucc_toList] at h

/-- The text of a natural number up to a bound is read as the number. -/
theorem readIntChars_showInt {n : Nat} (h : (n : Int) ≤ r.greatest) : readIntChars r (showInt n).toList = .ok n := by
  have hdigits := isDigits_toDigits n
  rw [showInt_ofNat_toList, readIntChars_unsigned_eq_ok_iff (by omega) (hdigits.head_ne (by decide))
    (hdigits.head_ne (by decide)), Nat.ofDigitChars_ten_toDigits]
  exact ⟨⟨hdigits, rfl⟩, h⟩

end Upnp.Decimal
