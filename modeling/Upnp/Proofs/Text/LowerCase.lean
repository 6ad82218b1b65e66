import Upnp.Text.LowerCase
import Upnp.Proofs.Text.Utf8

/-
Lower case is final. A text in lower case stays as it is when it is put in lower case again: no character
becomes one that has a lower case form of its own, and the two characters that are treated apart, the
capital sigma and the dotted capital I, come from no other.
-/

namespace Upnp.Text

/-- The character is left alone, wherever it stands. -/
structure IsLower (c : Char) : Prop where
  char : lowerChar c = c
  sigma : c ≠ 'Σ'
  dotted : c ≠ 'İ'

instance (c : Char) : Decidable (IsLower c) :=
  decidable_of_iff (lowerChar c = c ∧ c ≠ 'Σ' ∧ c ≠ 'İ')
    ⟨fun h => ⟨h.1, h.2.1, h.2.2⟩, fun h => ⟨h.char, h.sigma, h.dotted⟩⟩

/-! ## Runs -/

namespace CaseRun

/-- The lowest and the highest lower case form of the run. -/
def lowest (r : CaseRun) : Nat := (r.first + r.distance).toNat

def highest (r : CaseRun) : Nat := (r.last + r.distance).toNat

/-- All lower case forms of the run are characters. -/
def isProper (r : CaseRun) : Bool :=
  decide (0 ≤ r.first + r.distance ∧ r.highest < 0xD800 ∨ 0xE000 ≤ r.lowest ∧ r.highest < 0x110000)

/-- No lower case form of the run lies in another: one range is behind the other, or both take every second
character, one the even and one the odd ones. -/
def misses (r q : CaseRun) : Bool :=
  q.last.blt r.lowest || r.highest.blt q.first ||
    (q.step == 2 && (r.step == 2 || r.first == r.last) && (r.lowest + q.first) % 2 == 1)

theorem contains_iff {r : CaseRun} {c : Char} :
    r.contains c = true ↔ r.first ≤ c.toNat ∧ c.toNat ≤ r.last ∧ (c.toNat - r.first) % r.step = 0 := by
  unfold contains
  rw [Bool.and_eq_true, Bool.and_eq_true, decide_eq_true_eq, decide_eq_true_eq, beq_iff_eq, and_assoc]

/-- The lower case form of a character of the run, which is `r.first + i * r.step` for some `i`. -/
theorem toNat_of_isProper {r : CaseRun} (hr : r.isProper = true) {c : Char} (hc : r.contains c = true) :
    (Char.ofNat (c.toNat + r.distance).toNat).toNat + r.first = r.lowest + c.toNat ∧
      (Char.ofNat (c.toNat + r.distance).toNat).toNat + r.last = r.highest + c.toNat := by
  obtain ⟨hfirst, hlast, -⟩ := contains_iff.1 hc
  have hrange := of_decide_eq_true hr
  unfold lowest highest at hrange ⊢
  have hvalid : (c.toNat + r.distance).toNat.isValidChar := by
    rcases hrange with hrange | hrange
    · exact .inl (by omega)
    · exact .inr ⟨by omega, by omega⟩
  rw [Utf8.toNat_ofNat_char hvalid]
  omega

theorem contains_of_misses {r q : CaseRun} (hp : r.isProper = true) (h : r.misses q = true) {c : Char}
    (hc : r.contains c = true) : q.contains (Char.ofNat (c.toNat + r.distance).toNat) = false := by
  obtain ⟨hlow, hhigh⟩ := toNat_of_isProper hp hc
  obtain ⟨hfirst, hlast, hstep⟩ := contains_iff.1 hc
  generalize Char.ofNat (c.toNat + r.distance).toNat = d at hlow hhigh ⊢
  simp only [misses, Bool.or_eq_true, Bool.and_eq_true, Nat.blt_eq, beq_iff_eq] at h
  rw [← Bool.not_eq_true, contains_iff]
  rintro ⟨hf, hl, hs⟩
  rcases h with (h | h) | ⟨⟨hq, hr⟩, hodd⟩
  · omega
  · omega
  · -- forms of the run are all of the parity of the lowest
    rw [hq] at hs
    rcases hr with hr | hr
    · rw [hr] at hstep
      omega
    · omega

end CaseRun

/-- The dotted capital I, as a run of its own. -/
def dottedRun : CaseRun := ⟨0x130, 0x130, 1, 0⟩

/-- The lower case forms of all runs are characters that lie in no run. -/
theorem lowerRuns_final : (CaseTable.lowerRuns.all fun r =>
    r.isProper && (dottedRun :: CaseTable.lowerRuns).all r.misses) = true := by
  decide +kernel

/-! ## Characters -/

/-- A character that is in no run is its own lower case form. -/
theorem lowerChar_of_not_contains {c : Char} (h : ∀ q ∈ CaseTable.lowerRuns, q.contains c = false) :
    lowerChar c = c := by
  unfold lowerChar
  split
  · rename_i hc
    have hascii : ∀ n < 0x80, CaseRun.contains ⟨0x41, 0x5A, 1, 32⟩ (Char.ofNat n) = false →
        (Char.ofNat n).toLower = Char.ofNat n := by decide +kernel
    have hself := hascii c.toNat hc
    rw [Char.ofNat_toNat] at hself
    exact hself (h _ List.mem_cons_self)
  · rw [List.find?_eq_none.2 fun q hq => Bool.not_eq_true _ ▸ h q hq]

theorem isLower_of_not_contains {c : Char} (h : ∀ q ∈ dottedRun :: CaseTable.lowerRuns, q.contains c = false) :
    IsLower c := by
  have hruns : ∀ q ∈ CaseTable.lowerRuns, q.contains c = false := fun q hq => h q (List.mem_cons_of_mem _ hq)
  refine ⟨lowerChar_of_not_contains hruns, ?_, ?_⟩
  · rintro rfl
    have hsigma : (CaseTable.lowerRuns.any (·.contains 'Σ')) = true := by decide +kernel
    obtain ⟨q, hq, hc⟩ := List.any_eq_true.1 hsigma
    exact absurd hc (Bool.not_eq_true _ ▸ hruns q hq)
  · rintro rfl
    exact absurd (h _ List.mem_cons_self) (by decide)

theorem isLower_of_ascii : ∀ n < 0x80, IsLower (Char.ofNat n).toLower := by
  decide +kernel

/-- The lower case form of a character stays, unless the character is one of those treated apart. -/
theorem isLower_lowerChar {c : Char} (hs : c ≠ 'Σ') (hd : c ≠ 'İ') : IsLower (lowerChar c) := by
  unfold lowerChar
  split
  · rename_i hc
    have h := isLower_of_ascii c.toNat hc
    rwa [Char.ofNat_toNat] at h
  · rename_i hc
    split
    · rename_i r hr
      have hmem := List.mem_of_find?_eq_some hr
      have hcontains : r.contains c = true := List.find?_some (p := fun r : CaseRun => r.contains c) hr
      obtain ⟨hproper, hmisses⟩ := Bool.and_eq_true_iff.1 (List.all_eq_true.1 lowerRuns_final r hmem)
      exact isLower_of_not_contains fun q hq =>
        CaseRun.contains_of_misses hproper (List.all_eq_true.1 hmisses q hq) hcontains
    · rename_i hr
      refine ⟨?_, hs, hd⟩
      unfold lowerChar
      rw [if_neg hc, hr]

/-- What the characters treated apart become is in no run. -/
theorem isLower_of_apart : ∀ c ∈ ['σ', 'ς', 'i', '\u0307'], IsLower c := by
  have hall : (['σ', 'ς', 'i', '\u0307'].all fun c =>
      (dottedRun :: CaseTable.lowerRuns).all fun q => !q.contains c) = true := by decide +kernel
  intro c hc
  have hnone := List.all_eq_true.1 (List.all_eq_true.1 hall c hc)
  exact isLower_of_not_contains fun q hq => Bool.not_eq_true' _ ▸ hnone q hq

/-! ## Texts -/

theorem isLower_of_mem_lowerFrom (passed cs : List Char) : ∀ c ∈ lowerFrom passed cs, IsLower c := by
  induction cs generalizing passed with
  | nil => exact fun c hc => absurd hc List.not_mem_nil
  | cons d cs ih =>
    intro c hc
    rcases List.mem_append.1 hc with hc | hc
    · split at hc
      · refine isLower_of_apart c ?_
        split at hc <;> obtain rfl := List.mem_singleton.1 hc <;> simp
      · split at hc
        · exact isLower_of_apart c (List.mem_append_right ['σ', 'ς'] hc)
        · rename_i hs hd
          rw [List.mem_singleton.1 hc]
          exact isLower_lowerChar hs hd
    · exact ih _ c hc

theorem lowerFrom_of_isLower {cs : List Char} (h : ∀ c ∈ cs, IsLower c) (passed : List Char) :
    lowerFrom passed cs = cs := by
  induction cs generalizing passed with
  | nil => rfl
  | cons c cs ih =>
    have hc := h c List.mem_cons_self
    unfold lowerFrom
    rw [if_neg hc.sigma, if_neg hc.dotted, hc.char, ih fun d hd => h d (List.mem_cons_of_mem c hd)]
    rfl

/-- Lower case changes nothing in a text that is in lower case. -/
theorem toLower_toLower (s : String) : toLower (toLower s) = toLower s := by
  unfold toLower
  rw [String.toList_ofList, lowerFrom_of_isLower (isLower_of_mem_lowerFrom [] s.toList)]

end Upnp.Text
