import Upnp.Text.Blank

/-
Runs of characters. Text in front of a character without a property is taken and dropped as a whole,
and nothing is dropped at an end whose outermost character does not have the property; text without
blanks is therefore left alone by trimming.
-/

namespace Upnp.Text

/-! ## Runs at the front -/

theorem dropWhile_of_head {p : Char → Bool} {cs : List Char} (h : ∀ c, cs.head? = some c → p c = false) :
    cs.dropWhile p = cs := by
  cases cs with
  | nil => rfl
  | cons c cs =>
    rw [List.dropWhile_cons, h c rfl]
    rfl

theorem takeWhile_of_head {p : Char → Bool} {cs : List Char} (h : ∀ c, cs.head? = some c → p c = false) :
    cs.takeWhile p = [] := by
  cases cs with
  | nil => rfl
  | cons c cs =>
    rw [List.takeWhile_cons, h c rfl]
    rfl

/-- A run ends where the first character without the property stands. -/
theorem takeWhile_append_of_head {p : Char → Bool} {a b : List Char} (ha : ∀ c ∈ a, p c = true)
    (hb : ∀ c, b.head? = some c → p c = false) : (a ++ b).takeWhile p = a ∧ (a ++ b).dropWhile p = b := by
  rw [List.takeWhile_append_of_pos ha, List.dropWhile_append_of_pos ha, takeWhile_of_head hb, dropWhile_of_head hb,
    List.append_nil]
  exact ⟨rfl, rfl⟩

/-- Dropping does not get beyond a character without the property. -/
theorem dropWhile_append_of_head {p : Char → Bool} {a b : List Char} (hb : ∀ c, b.head? = some c → p c = false) :
    ∃ t, (a ++ b).dropWhile p = t ++ b := by
  induction a with
  | nil => exact ⟨[], dropWhile_of_head hb⟩
  | cons c a ih =>
    rw [List.cons_append, List.dropWhile_cons]
    split
    · exact ih
    · exact ⟨c :: a, rfl⟩

theorem head_dropWhile {p : Char → Bool} {cs : List Char} : ∀ c, (cs.dropWhile p).head? = some c → p c = false := by
  intro c hc
  have hnot := List.head?_dropWhile_not p cs
  rw [hc] at hnot
  simpa using hnot

/-- Text is cut into runs of characters with a property and single characters without it. -/
theorem runs_induction (p : Char → Bool) {P : List Char → Prop} (nil : P [])
    (single : ∀ c v, p c = false → P v → P (c :: v))
    (run : ∀ a v, a ≠ [] → (∀ c ∈ a, p c = true) → (∀ c, v.head? = some c → p c = false) → P v → P (a ++ v))
    (v : List Char) : P v := by
  match v with
  | [] => exact nil
  | c :: v =>
    cases hc : p c with
    | false => exact single c v hc (runs_induction p nil single run v)
    | true =>
      have htake : (c :: v).takeWhile p ≠ [] := by
        rw [List.takeWhile_cons, hc]
        exact List.cons_ne_nil _ _
      have hlen : ((c :: v).dropWhile p).length < (c :: v).length := by
        rw [List.dropWhile_cons, hc]
        exact Nat.lt_succ_of_le (List.dropWhile_suffix p).length_le
      rw [← List.takeWhile_append_dropWhile (p := p) (l := c :: v)]
      refine run _ _ htake (fun d hd => ?_) head_dropWhile (runs_induction p nil single run _)
      exact List.all_eq_true.1 List.all_takeWhile d hd
termination_by v.length
decreasing_by
  · exact Nat.lt_succ_self v.length
  · exact hlen

/-! ## Trimming -/

theorem isDigit_iff {c : Char} : c.isDigit = true ↔ 48 ≤ c.toNat ∧ c.toNat ≤ 57 := by
  rw [Char.isDigit, Bool.and_eq_true, decide_eq_true_eq, decide_eq_true_eq]
  exact Iff.rfl

theorem isBlank_of_isDigit {c : Char} (h : c.isDigit = true) : isBlank c = false := by
  rw [isDigit_iff] at h
  simp only [isBlank, Bool.or_eq_false_iff, Bool.and_eq_false_iff, decide_eq_false_iff_not, beq_eq_false_iff_ne]
  omega

theorem isPrefix_dropTrailing (p : Char → Bool) (cs : List Char) : dropTrailing p cs <+: cs := by
  unfold dropTrailing
  rw [← List.reverse_suffix, List.reverse_reverse]
  exact List.dropWhile_suffix p

theorem dropTrailing_of_last {p : Char → Bool} {cs : List Char} (h : ∀ c, cs.getLast? = some c → p c = false) :
    dropTrailing p cs = cs := by
  unfold dropTrailing
  rw [dropWhile_of_head fun c hc => h c (List.head?_reverse ▸ hc), List.reverse_reverse]

/-- Dropping from the end does not get beyond a character without the property. -/
theorem dropTrailing_append_cons {p : Char → Bool} {c : Char} (hc : p c = false) (a b : List Char) :
    dropTrailing p (a ++ c :: b) = a ++ c :: dropTrailing p b := by
  have hstop : (c :: a.reverse).dropWhile p = c :: a.reverse := List.dropWhile_cons_of_neg (by simp [hc])
  unfold dropTrailing
  rw [List.reverse_append, List.reverse_cons, List.append_assoc, List.singleton_append, List.dropWhile_append]
  split
  · rename_i hall
    rw [hstop, List.isEmpty_iff.1 hall]
    simp
  · simp

theorem dropTrailing_append {p : Char → Bool} {a b : List Char} (hb : ∀ c ∈ b, p c = true) :
    dropTrailing p (a ++ b) = dropTrailing p a := by
  unfold dropTrailing
  rw [List.reverse_append, List.dropWhile_append_of_pos fun c hc => hb c (List.mem_reverse.1 hc)]

theorem dropBlanks_dropBlanks (cs : List Char) : dropBlanks (dropBlanks cs) = dropBlanks cs :=
  dropWhile_of_head head_dropWhile

theorem trimChars_of_ends {cs : List Char} (hh : ∀ c, cs.head? = some c → isBlank c = false)
    (hl : ∀ c, cs.getLast? = some c → isBlank c = false) : trimChars cs = cs := by
  unfold trimChars dropBlanks
  rw [dropWhile_of_head hh, dropTrailing_of_last hl]

end Upnp.Text
