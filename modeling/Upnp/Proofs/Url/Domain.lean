import Mathlib.Data.List.Forall2
import Mathlib.Data.List.Infix
import Upnp.Proofs.Text.LowerCase
import Upnp.Proofs.Url.Punycode
import Upnp.Proofs.Url.Web

/-
Domains in ASCII form. What is read of a domain is in a form that reading does not change any more: its
characters are ASCII in lower case, none of them forbidden, and its labels are either plain or the punycode of
a text that needs it.
-/

namespace Upnp.Url

open Upnp.Text

/-! ## Characters of domains -/

/-- Characters of labels in ASCII form. -/
structure IsLabelChar (c : Char) : Prop where
  ascii : c.toNat < 128
  lower : IsLower c
  not_dot : c ≠ '.'

theorem foldDomainChar_of_ascii {c : Char} (ha : c.toNat < 128) (hl : IsLower c) : foldDomainChar c = [c] := by
  have hignored : isIgnoredInDomain c = false := by
    rw [Bool.eq_false_iff]
    intro h
    simp only [isIgnoredInDomain, List.contains_iff_mem, List.mem_cons, List.not_mem_nil, or_false] at h
    rcases h with rfl | rfl | rfl | rfl <;> exact absurd ha (by decide)
  have hstop : ¬ (c = '。' ∨ c = '｡') := by
    rintro (rfl | rfl) <;> exact absurd ha (by decide)
  have hwide : ¬ (0xFF01 ≤ c.toNat ∧ c.toNat ≤ 0xFF5E) := by omega
  simp only [foldDomainChar, hignored, hstop, hwide, Bool.false_eq_true, if_false]
  exact lowerFrom_of_isLower (List.forall_mem_singleton.2 hl) []

theorem isLower_of_mem_foldDomainChar {c d : Char} (h : d ∈ foldDomainChar c) : IsLower d := by
  unfold foldDomainChar at h
  simp only at h
  split at h
  · exact absurd h List.not_mem_nil
  · split at h
    · rw [List.mem_singleton.1 h]
      decide
    · split at h
      · rw [List.mem_singleton.1 h]
        exact isLower_of_ascii _ (by omega)
      · exact isLower_of_mem_lowerFrom _ _ d h

theorem flatMap_foldDomainChar {cs : List Char} (h : ∀ c ∈ cs, c.toNat < 128 ∧ IsLower c) :
    cs.flatMap foldDomainChar = cs := by
  induction cs with
  | nil => rfl
  | cons c cs ih =>
    obtain ⟨hc, hcs⟩ := List.forall_mem_cons.1 h
    rw [List.flatMap_cons, foldDomainChar_of_ascii hc.1 hc.2, ih hcs]
    rfl

/-! ## Labels -/

theorem isLabelChar_digitChar : ∀ d < 36, IsLabelChar (Punycode.digitChar d) := by
  have hall : ∀ d < 36, (Punycode.digitChar d).toNat < 128 ∧ IsLower (Punycode.digitChar d) ∧
      Punycode.digitChar d ≠ '.' := by decide +kernel
  exact fun d hd => ⟨(hall d hd).1, (hall d hd).2.1, (hall d hd).2.2⟩

theorem isLabelChar_of_mem : ∀ c ∈ ['x', 'n', '-'], IsLabelChar c := by
  simp only [List.forall_mem_cons]
  exact ⟨⟨by decide, isLower_of_ascii 0x78 (by decide), by decide⟩,
    ⟨by decide, isLower_of_ascii 0x6E (by decide), by decide⟩,
    ⟨by decide, isLower_of_ascii 0x2D (by decide), by decide⟩, fun _ hc => absurd hc List.not_mem_nil⟩

/-- The ASCII form of a label is one already, and made of characters of labels. -/
theorem asciiLabel?_eq_some {label l : List Char} (hlow : ∀ c ∈ label, IsLower c ∧ c ≠ '.')
    (h : asciiLabel? label = some l) : asciiLabel? l = some l ∧ ∀ c ∈ l, IsLabelChar c := by
  by_cases hascii : label.all (·.toNat < 128) = true
  · have hself : l = label := by
      unfold asciiLabel? at h
      rw [if_pos hascii] at h
      split at h
      · split at h
        · exact (Option.some.inj h).symm
        · cases h
      · exact (Option.some.inj h).symm
    subst hself
    refine ⟨h, fun c hc => ⟨?_, (hlow c hc).1, (hlow c hc).2⟩⟩
    exact of_decide_eq_true (List.all_eq_true.1 hascii c hc)
  · unfold asciiLabel? at h
    rw [if_neg hascii, Option.ite_none_right_eq_some, Option.some.injEq] at h
    obtain ⟨hwide, hl⟩ := h
    have hform : l = 'x' :: 'n' :: '-' :: '-' :: Punycode.encode label := hl.symm
    have hchars : ∀ c ∈ l, IsLabelChar c := by
      rw [hform]
      simp only [List.forall_mem_cons]
      refine ⟨isLabelChar_of_mem _ (by simp), isLabelChar_of_mem _ (by simp), isLabelChar_of_mem _ (by simp),
        isLabelChar_of_mem _ (by simp), fun c hc => ?_⟩
      rcases Punycode.mem_encode hc with ⟨hmem, ha⟩ | rfl | ⟨d, hd, rfl⟩
      · exact ⟨ha, (hlow c hmem).1, (hlow c hmem).2⟩
      · exact isLabelChar_of_mem _ (by simp)
      · exact isLabelChar_digitChar d hd
    refine ⟨?_, hchars⟩
    have hall : l.all (·.toNat < 128) = true := List.all_eq_true.2 fun c hc => decide_eq_true (hchars c hc).ascii
    -- the label that it stands for could be taken, so the form is accepted
    unfold asciiLabel?
    rw [if_pos hall, hform]
    simp only [Punycode.decode?_encode, Option.any_some, hwide, if_true]

/-! ## Domains -/

theorem mapM_eq_some_iff {α β : Type} {f : α → Option β} {xs : List α} {ys : List β} :
    xs.mapM f = some ys ↔ List.Forall₂ (fun x y => f x = some y) xs ys := by
  induction xs generalizing ys with
  | nil =>
    rw [List.mapM_nil, List.forall₂_nil_left_iff]
    exact ⟨fun h => (Option.some.inj h).symm, fun h => h ▸ rfl⟩
  | cons x xs ih =>
    rw [List.mapM_cons]
    constructor
    · intro h
      obtain ⟨y, hy, h⟩ := Option.bind_eq_some_iff.1 h
      obtain ⟨ys', hys, h⟩ := Option.bind_eq_some_iff.1 h
      cases h
      exact .cons hy (ih.1 hys)
    · rintro (_ | ⟨hy, hys⟩)
      rw [hy, Option.bind_eq_bind, Option.bind_some, ih.2 hys]
      rfl

theorem exists_of_forall₂ {α β : Type} {R : α → β → Prop} {xs : List α} {ys : List β} (h : List.Forall₂ R xs ys) :
    ∀ y ∈ ys, ∃ x ∈ xs, R x y := by
  induction h with
  | nil => exact fun _ hy => absurd hy List.not_mem_nil
  | cons hxy _ ih =>
    rw [List.forall_mem_cons]
    exact ⟨⟨_, List.mem_cons_self, hxy⟩, fun y hy =>
      (ih y hy).imp fun _ hx => ⟨List.mem_cons_of_mem _ hx.1, hx.2⟩⟩

/-- A text whose labels are in ASCII form is a domain in ASCII form if no character is forbidden. -/
theorem asciiDomain?_intercalate {labels : List (List Char)} (hne : labels ≠ [])
    (hl : ∀ l ∈ labels, asciiLabel? l = some l ∧ ∀ c ∈ l, IsLabelChar c)
    (ha : ∀ c ∈ ['.'].intercalate labels, isForbiddenInDomain c = false) :
    asciiDomain? (['.'].intercalate labels) = some (['.'].intercalate labels) := by
  have hchars : ∀ c ∈ ['.'].intercalate labels, c.toNat < 128 ∧ IsLower c :=
    forall_mem_intercalate (List.forall_mem_singleton.2 (by decide)) fun l hmem c hc =>
      ⟨((hl l hmem).2 c hc).ascii, ((hl l hmem).2 c hc).lower⟩
  have hsplit : splitAll ['.'] (['.'].intercalate labels) = labels := by
    refine splitAll_intercalate (unbordered_singleton '.') (List.cons_ne_nil _ _) hne fun l hmem hdot => ?_
    exact ((hl l hmem).2 '.' ((List.singleton_infix_iff _ _).1 hdot)).not_dot rfl
  have hforms : labels.mapM asciiLabel? = some labels :=
    mapM_eq_some_iff.2 (List.forall₂_same.2 fun l hmem => (hl l hmem).1)
  have hnone : ¬ (['.'].intercalate labels).any isForbiddenInDomain = true := by
    rw [List.any_eq_true]
    rintro ⟨c, hc, hf⟩
    rw [ha c hc] at hf
    cases hf
  unfold asciiDomain?
  rw [flatMap_foldDomainChar hchars, hsplit, hforms]
  exact if_neg hnone

/-- A domain that was read is in ASCII form, of labels in ASCII form. -/
theorem asciiDomain?_eq_some {cs domain : List Char} (h : asciiDomain? cs = some domain) :
    ∃ labels, labels ≠ [] ∧ domain = ['.'].intercalate labels ∧
      (∀ l ∈ labels, asciiLabel? l = some l ∧ ∀ c ∈ l, IsLabelChar c) ∧
      ∀ c ∈ domain, isForbiddenInDomain c = false := by
  unfold asciiDomain? at h
  obtain ⟨labels, hforms, h⟩ := Option.bind_eq_some_iff.1 h
  simp only [Option.ite_none_left_eq_some, Option.some.injEq, Bool.not_eq_true, List.any_eq_false] at h
  obtain ⟨hallowed, rfl⟩ := h
  have hall := mapM_eq_some_iff.1 hforms
  refine ⟨labels, ?_, rfl, ?_, hallowed⟩
  · rintro rfl
    exact splitAll_ne_nil _ _ (List.forall₂_nil_right_iff.1 hall)
  · have hlow : ∀ label ∈ splitAll ['.'] (cs.flatMap foldDomainChar), ∀ c ∈ label, IsLower c ∧ c ≠ '.' := by
      intro label hlabel c hc
      constructor
      · have hmem := (infix_of_mem_splitAll (List.cons_ne_nil _ _) label hlabel).subset hc
        obtain ⟨d, -, hd⟩ := List.mem_flatMap.1 hmem
        exact isLower_of_mem_foldDomainChar hd
      · rintro rfl
        exact not_infix_of_mem_splitAll (List.cons_ne_nil _ _) label hlabel ((List.singleton_infix_iff _ _).2 hc)
    intro l hl
    obtain ⟨label, hlabel, hform⟩ := exists_of_forall₂ hall l hl
    exact asciiLabel?_eq_some (hlow label hlabel) hform

/-- Reading a domain in ASCII form changes nothing. -/
theorem asciiDomain?_asciiDomain? {cs domain : List Char} (h : asciiDomain? cs = some domain) :
    asciiDomain? domain = some domain := by
  obtain ⟨labels, hne, rfl, hlabels, hallowed⟩ := asciiDomain?_eq_some h
  exact asciiDomain?_intercalate hne hlabels hallowed

end Upnp.Url
