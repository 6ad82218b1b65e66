import Upnp.Ssdp.MaxAge
import Upnp.Proofs.Decimal.Integer
import Upnp.Proofs.Ssdp.Writes

/-
Lifetimes of announcements. The directive that gives a lifetime is found behind whatever text stands in front
of it, in any letter case; its digits are read with blanks around the equals sign and up to the first character
that is no digit, and count as far as they denote a number of 32 bits.
-/

namespace Upnp.Text

/-! ## Characters without letter case -/

theorem toLower_of_not_capital {c : Char} (h : c.toNat < 65 ∨ 90 < c.toNat) : c.toLower = c := by
  rw [← Char.toNat_inj, toNat_toLower, if_neg (by omega)]

theorem toLower_of_isBlank {c : Char} (h : isBlank c = true) : c.toLower = c := by
  refine toLower_of_not_capital ?_
  simp only [isBlank, Bool.or_eq_true, Bool.and_eq_true, decide_eq_true_eq, beq_iff_eq] at h
  omega

theorem toLower_of_isDigit {c : Char} (h : c.isDigit = true) : c.toLower = c := by
  rw [isDigit_iff] at h
  exact toLower_of_not_capital (by omega)

theorem isDigit_toLower (c : Char) : c.toLower.isDigit = c.isDigit := by
  rw [Bool.eq_iff_iff, isDigit_iff, isDigit_iff, toNat_toLower]
  split <;> omega

theorem map_toLower_eq_self {cs : List Char} (h : ∀ c ∈ cs, c.toLower = c) : cs.map Char.toLower = cs :=
  (List.map_congr_left h).trans (List.map_id cs)

end Upnp.Text

namespace Upnp.Ssdp

open Upnp.Text Upnp.Decimal

/-! ## The name of the directive -/

/-- The name of the directive, in any letter case. -/
def IsMaxAge (cs : List Char) : Prop :=
  cs.map Char.toLower = "max-age".toList

/-- The name of the directive occurs in the text. -/
def NamesMaxAge (cs : List Char) : Prop :=
  ∃ m, IsMaxAge m ∧ m <:+: cs

instance (cs : List Char) : Decidable (IsMaxAge cs) :=
  inferInstanceAs (Decidable (_ = _))

theorem namesMaxAge_iff {cs : List Char} : NamesMaxAge cs ↔ "max-age".toList <:+: cs.map Char.toLower := by
  rw [List.infix_map_iff]
  constructor
  · rintro ⟨m, hm, hin⟩
    exact ⟨m, hin, hm.symm⟩
  · rintro ⟨m, hin, hm⟩
    exact ⟨m, hm.symm, hin⟩

theorem unbordered_maxAge : Unbordered "max-age".toList := by
  unfold Unbordered
  decide

/-! ## Finding the directive -/

variable {pre m w₁ w₂ digits post : List Char}

/-- The parts of a text with a lifetime: what stands in front of the name does not hold it, blanks stand around
the equals sign, and the digits end where no other follows. -/
structure IsDirective (pre m w₁ w₂ digits post : List Char) : Prop where
  first : ¬ NamesMaxAge pre
  name : IsMaxAge m
  gap_left : ∀ c ∈ w₁, isBlank c = true
  gap_right : ∀ c ∈ w₂, isBlank c = true
  digits : IsDigits digits
  stop : ∀ c, post.head? = some c → c.isDigit = false

/-- The parts put together. -/
def directiveText (pre m w₁ w₂ digits post : List Char) : List Char :=
  pre ++ (m ++ (w₁ ++ '=' :: (w₂ ++ (digits ++ post))))

/-- Lower case changes nothing between the name and the text behind the digits. -/
theorem map_toLower_directiveText (h : IsDirective pre m w₁ w₂ digits post) :
    (directiveText pre m w₁ w₂ digits post).map Char.toLower =
      pre.map Char.toLower ++ ("max-age".toList ++ (w₁ ++ '=' :: (w₂ ++ (digits ++ post.map Char.toLower)))) := by
  have hblanks : ∀ {w : List Char}, (∀ c ∈ w, isBlank c = true) → w.map Char.toLower = w := fun hw =>
    map_toLower_eq_self fun c hc => toLower_of_isBlank (hw c hc)
  have hdigits : digits.map Char.toLower = digits :=
    map_toLower_eq_self fun c hc => toLower_of_isDigit (h.digits.2 c hc)
  have hname : m.map Char.toLower = "max-age".toList := h.name
  unfold directiveText
  simp only [List.map_append, List.map_cons, hname, hblanks h.gap_left, hblanks h.gap_right, hdigits]
  rfl

/-- Behind the name, blanks, the equals sign and blanks again are passed over, up to the digits. -/
theorem dropBlanks_gaps (h : IsDirective pre m w₁ w₂ digits post) (rest : List Char) :
    dropBlanks ((dropBlanks (w₁ ++ '=' :: (w₂ ++ (digits ++ rest)))).dropWhile (· == '=')) = digits ++ rest := by
  have hdigit : ∀ c, (digits ++ rest).head? = some c → c.isDigit = true := by
    intro c hc
    rw [List.head?_append_of_ne_nil _ h.digits.1] at hc
    exact h.digits.2 c (List.mem_of_mem_head? hc)
  have hsign : dropBlanks (w₁ ++ '=' :: (w₂ ++ (digits ++ rest))) = '=' :: (w₂ ++ (digits ++ rest)) := by
    refine (takeWhile_append_of_head h.gap_left fun c hc => ?_).2
    obtain rfl : '=' = c := by simpa using hc
    decide
  have hvalue : ('=' :: (w₂ ++ (digits ++ rest))).dropWhile (· == '=') = w₂ ++ (digits ++ rest) := by
    rw [List.dropWhile_cons_of_pos (by decide)]
    refine dropWhile_of_head fun c hc => beq_false_of_ne ?_
    rintro rfl
    -- an equals sign is neither blank nor a digit
    cases w₂ with
    | nil => exact absurd (hdigit '=' hc) (by decide)
    | cons d w =>
      obtain rfl : d = '=' := by simpa using hc
      exact absurd (h.gap_right '=' List.mem_cons_self) (by decide)
  rw [hsign, hvalue]
  exact (takeWhile_append_of_head h.gap_right fun c hc => isBlank_of_isDigit (hdigit c hc)).2

theorem maxAgeDigits?_directive (h : IsDirective pre m w₁ w₂ digits post) :
    maxAgeDigits? ((directiveText pre m w₁ w₂ digits post).map Char.toLower) = some digits := by
  have hfirst : ¬ "max-age".toList <:+: pre.map Char.toLower := fun hin => h.first (namesMaxAge_iff.2 hin)
  have hstop : ∀ c, (post.map Char.toLower).head? = some c → c.isDigit = false := by
    intro c hc
    rw [List.head?_map, Option.map_eq_some_iff] at hc
    obtain ⟨d, hd, rfl⟩ := hc
    rw [isDigit_toLower]
    exact h.stop d hd
  unfold maxAgeDigits?
  rw [map_toLower_directiveText h, splitOnce?_append unbordered_maxAge (by decide) hfirst, Option.map_some]
  simp only
  rw [dropBlanks_gaps h, (takeWhile_append_of_head h.digits.2 hstop).1]

theorem maxAgeDigits?_of_not_named {cs : List Char} (h : ¬ NamesMaxAge cs) :
    maxAgeDigits? (cs.map Char.toLower) = none := by
  unfold maxAgeDigits?
  rw [splitOnce?_eq_none.2 (mt namesMaxAge_iff.2 h), Option.map_none]

/-! ## Lifetimes -/

theorem maxAge_of_digits {text : String} {ds : List Char} (h : maxAgeDigits? (text.toList.map Char.toLower) = some ds)
    (hd : IsDigits ds) :
    maxAge (some text) = if Nat.ofDigitChars 10 ds 0 < 4294967296 then Nat.ofDigitChars 10 ds 0 else 1800 := by
  have hage : maxAge (some text) = ((readIntChars .unsigned32 ds).toOption.map Int.toNat).getD defaultMaxAge := by
    unfold maxAge
    simp [h]
  have hgreatest : IntRange.unsigned32.greatest = 4294967295 := rfl
  rw [hage, toOption_readIntChars_digits (by decide) hd, hgreatest]
  by_cases hlt : Nat.ofDigitChars 10 ds 0 < 4294967296
  · rw [if_pos hlt, if_pos (by omega)]
    rfl
  · rw [if_neg hlt, if_neg (by omega)]
    rfl

/-- The lifetime of a text is the number behind its first directive, if that has no more than 32 bits, and the
default if it has more or if no directive is named. -/
theorem maxAge_directive :
    (∀ {pre m w₁ w₂ digits post : List Char}, IsDirective pre m w₁ w₂ digits post →
      maxAge (some (String.ofList (directiveText pre m w₁ w₂ digits post))) =
        if Nat.ofDigitChars 10 digits 0 < 4294967296 then Nat.ofDigitChars 10 digits 0 else 1800) ∧
    ∀ text : String, ¬ NamesMaxAge text.toList → maxAge (some text) = 1800 := by
  constructor
  · intro pre m w₁ w₂ digits post h
    refine maxAge_of_digits ?_ h.digits
    rw [String.toList_ofList, maxAgeDigits?_directive h]
  · intro text h
    unfold maxAge
    simp [maxAgeDigits?_of_not_named h, defaultMaxAge]

/-- A directive behind text that nearly names it, with blanks that are no spaces and leading zeros; one with a
number of 33 bits; and a text that only nearly names a directive. -/
theorem maxAge_directive_late :
    IsDirective "größe=1, max-ag".toList "mAx-AgE".toList ['\u2003'] ['\t', ' '] "0060".toList "x9".toList ∧
    maxAge (some "größe=1, max-agmAx-AgE\u2003=\t 0060x9") = 60 ∧
    IsDirective [] "max-age".toList [] [] "4294967296".toList [] ∧ maxAge (some "max-age=4294967296") = 1800 ∧
    ¬ NamesMaxAge "max-ag e=60".toList ∧ maxAge (some "max-ag e=60") = 1800 := by
  have hno : ∀ {cs : List Char}, ¬ "max-age".toList <:+: cs.map Char.toLower → ¬ NamesMaxAge cs := mt namesMaxAge_iff.1
  have hlate : IsDirective "größe=1, max-ag".toList "mAx-AgE".toList ['\u2003'] ['\t', ' '] "0060".toList "x9".toList :=
    ⟨hno (by decide), by decide, List.all_eq_true.1 (by decide), List.all_eq_true.1 (by decide), by decide,
      fun c hc => Option.some.inj hc ▸ by decide⟩
  have hlarge : IsDirective [] "max-age".toList [] [] "4294967296".toList [] :=
    ⟨hno (by decide), by decide, by simp, by simp, by decide, by simp⟩
  have hnear : ¬ NamesMaxAge "max-ag e=60".toList := hno (by decide)
  refine ⟨hlate, ?_, hlarge, ?_, hnear, maxAge_directive.2 _ hnear⟩
  · exact (maxAge_directive.1 hlate).trans (by decide)
  · exact (maxAge_directive.1 hlarge).trans (by decide)

end Upnp.Ssdp
