import Upnp.Text.Split

/-
Cutting at a separator and joining are inverse. `splitOnce?` finds the first occurrence, and none
just if there is none; `splitAll` cuts off the piece in front of the first occurrence and goes on
behind it. Text put together with a separator is cut where it was joined when no piece holds the
separator and the separator does not overlap itself.
-/

namespace Upnp.Text

variable {α : Type}

/-! ## Separators that do not overlap themselves -/

/-- No proper part at the front of a separator is at its end as well. -/
def Unbordered (sep : List α) : Prop :=
  ∀ k < sep.length, 0 < k → sep.take k ≠ sep.drop (sep.length - k)

theorem unbordered_singleton (x : α) : Unbordered [x] := by
  intro k hk h0
  simp only [List.length_singleton] at hk
  omega

/-- A separator without borders does not start within another occurrence of itself. -/
theorem Unbordered.not_prefix {sep s t : List α} (hu : Unbordered sep) (hs : s ≠ []) (hl : s.length < sep.length)
    (hsuf : s <:+ sep) : ¬ sep <+: s ++ t := by
  intro hp
  have hpos : 0 < s.length := List.length_pos_iff.2 hs
  refine hu s.length hl hpos ?_
  obtain ⟨u, hu'⟩ := hp
  obtain ⟨v, hv⟩ := hsuf
  have h1 : sep.take s.length = s := by
    have := congrArg (List.take s.length) hu'
    rwa [List.take_left, List.take_append_of_le_length (by omega)] at this
  have h2 : sep.drop (sep.length - s.length) = s := by
    rw [← hv, List.length_append, Nat.add_sub_cancel, List.drop_left]
  rw [h1, h2]

/-- Nor does it start within text in front of it that does not hold it. -/
theorem Unbordered.not_prefix_append {sep a b : List α} (hu : Unbordered sep) (ha : a ≠ [])
    (h : ¬ sep <:+: a) : ¬ sep <+: a ++ (sep ++ b) := by
  intro hp
  by_cases hl : sep.length ≤ a.length
  · exact h (List.prefix_of_prefix_length_le hp (List.prefix_append a _) hl).isInfix
  · obtain ⟨u, hu'⟩ := hp
    -- what is left of the separator behind `a` is at the front of its next occurrence
    have hpre : a <+: sep := List.prefix_of_prefix_length_le (List.prefix_append a _)
      ⟨u, hu'⟩ (by omega)
    obtain ⟨s, hs⟩ := hpre
    have hrest : s ++ u = sep ++ b := by
      have h' := hu'
      rw [← hs, List.append_assoc, List.append_cancel_left_eq, hs] at h'
      exact h'
    have hpos : 0 < a.length := List.length_pos_iff.2 ha
    have hlen : s.length < sep.length := by rw [← hs, List.length_append]; omega
    have hne : s ≠ [] := by
      rintro rfl
      rw [List.append_nil] at hs
      rw [hs] at hl
      exact hl (Nat.le_refl _)
    exact hu.not_prefix hne hlen ⟨a, hs⟩ ⟨b, hrest.symm⟩

/-! ## Occurrences in joined text -/

/-- A text does not reach over an element that it does not hold. -/
theorem infix_append_cons_iff {sep a b : List α} {x : α} (hx : x ∉ sep) :
    sep <:+: a ++ x :: b ↔ sep <:+: a ∨ sep <:+: b := by
  rw [List.infix_append_iff, List.infix_cons_iff]
  constructor
  · rintro (h | (h | h) | ⟨s, t, rfl, hs, ht⟩)
    · exact .inl h
    · cases sep with
      | nil => exact .inl (List.nil_infix)
      | cons y sep =>
        rw [List.cons_prefix_cons] at h
        exact absurd (h.1 ▸ List.mem_cons_self) hx
    · exact .inr h
    · cases t with
      | nil =>
        rw [List.append_nil]
        exact .inl hs.isInfix
      | cons y t =>
        rw [List.cons_prefix_cons] at ht
        exact absurd (List.mem_append_right s (ht.1 ▸ List.mem_cons_self)) hx
  · rintro (h | h)
    · exact .inl h
    · exact .inr (.inl (.inr h))

theorem infix_cons_iff_of_not_mem {sep b : List α} {x : α} (hx : x ∉ sep) (hs : sep ≠ []) :
    sep <:+: x :: b ↔ sep <:+: b := by
  have h := infix_append_cons_iff (a := []) (b := b) hx
  rw [List.nil_append, List.infix_nil] at h
  exact h.trans (or_iff_right hs)

/-- Joining with an element that a text does not hold brings in no occurrence of the text. -/
theorem not_infix_intercalate {sep : List α} {x : α} (hx : x ∉ sep) (hs : sep ≠ []) :
    ∀ {ps : List (List α)}, (∀ p ∈ ps, ¬ sep <:+: p) → ¬ sep <:+: [x].intercalate ps
  | [], _ => by
    rw [List.intercalate_nil, List.infix_nil]
    exact hs
  | [p], h => by
    rw [List.intercalate_singleton]
    exact h p List.mem_cons_self
  | p :: q :: ps, h => by
    rw [List.intercalate_cons_cons, List.append_assoc, List.singleton_append, infix_append_cons_iff hx]
    exact not_or.2 ⟨h p List.mem_cons_self,
      not_infix_intercalate hx hs fun r hr => h r (List.mem_cons_of_mem p hr)⟩

/-! ## The first occurrence -/

variable [BEq α] [LawfulBEq α]

/-- The parts around the first occurrence make up the whole. -/
theorem splitOnce?_some {sep : List α} : ∀ {xs a b : List α}, splitOnce? sep xs = some (a, b) →
    xs = a ++ (sep ++ b)
  | [], a, b, h => by
    unfold splitOnce? at h
    split at h
    · rename_i hs
      cases h
      simpa using hs
    · cases h
  | x :: xs, a, b, h => by
    unfold splitOnce? at h
    split at h
    · rename_i hp
      cases h
      exact (List.prefix_iff_eq_append.1 (List.isPrefixOf_iff_prefix.1 hp)).symm
    · obtain ⟨⟨a', b'⟩, h', he⟩ := Option.map_eq_some_iff.1 h
      cases he
      rw [splitOnce?_some h']
      rfl

/-- Nothing is found just if the separator does not occur. -/
theorem splitOnce?_eq_none {sep : List α} : ∀ {xs : List α}, splitOnce? sep xs = none ↔ ¬ sep <:+: xs
  | [] => by
    unfold splitOnce?
    rw [List.infix_nil]
    split
    · rename_i hs
      simpa using hs
    · rename_i hs
      simpa using hs
  | x :: xs => by
    unfold splitOnce?
    rw [List.infix_cons_iff, not_or]
    split
    · rename_i hp
      simp [List.isPrefixOf_iff_prefix.1 hp]
    · rename_i hp
      rw [List.isPrefixOf_iff_prefix] at hp
      rw [Option.map_eq_none_iff, @splitOnce?_eq_none sep xs]
      exact ⟨fun h => ⟨hp, h⟩, And.right⟩

/-- The part in front of the first occurrence holds none. -/
theorem not_infix_of_splitOnce? {sep : List α} (hs : sep ≠ []) : ∀ {xs a b : List α},
    splitOnce? sep xs = some (a, b) → ¬ sep <:+: a
  | [], a, b, h => by
    unfold splitOnce? at h
    split at h
    · cases h
      rwa [List.infix_nil]
    · cases h
  | x :: xs, a, b, h => by
    unfold splitOnce? at h
    split at h
    · cases h
      rwa [List.infix_nil]
    · rename_i hp
      obtain ⟨⟨a', b'⟩, h', he⟩ := Option.map_eq_some_iff.1 h
      cases he
      rw [List.infix_cons_iff, not_or]
      refine ⟨fun hpre => hp ?_, not_infix_of_splitOnce? hs h'⟩
      rw [splitOnce?_some h', List.isPrefixOf_iff_prefix]
      exact hpre.trans (List.prefix_append (x :: a') _)

/-- Text in which the separator does not start is passed over. -/
theorem splitOnce?_append_of {sep y : List α} : ∀ {a : List α}, (∀ s, s ≠ [] → s <:+ a → ¬ sep <+: s ++ y) →
    splitOnce? sep (a ++ y) = (splitOnce? sep y).map fun (u, v) => (a ++ u, v)
  | [], _ => by
    rw [List.nil_append]
    cases splitOnce? sep y <;> rfl
  | x :: a, h => by
    have hp := h (x :: a) (List.cons_ne_nil x a) (List.suffix_refl _)
    rw [List.cons_append] at hp
    rw [List.cons_append, splitOnce?, if_neg (by rwa [List.isPrefixOf_iff_prefix]),
      splitOnce?_append_of fun s hs hsuf => h s hs (hsuf.trans (List.suffix_cons x a))]
    cases splitOnce? sep y <;> rfl

theorem splitOnce?_self_append {sep : List α} (hs : sep ≠ []) (b : List α) :
    splitOnce? sep (sep ++ b) = some ([], b) := by
  cases sep with
  | nil => exact absurd rfl hs
  | cons y sep =>
    rw [List.cons_append, splitOnce?, if_pos]
    · rw [← List.cons_append, List.drop_left]
    · rw [List.isPrefixOf_iff_prefix, ← List.cons_append]
      exact List.prefix_append _ _

/-- The first occurrence of a separator is the one behind text that does not hold it. -/
theorem splitOnce?_append {sep a : List α} (hu : Unbordered sep) (hs : sep ≠ []) (h : ¬ sep <:+: a) (b : List α) :
    splitOnce? sep (a ++ (sep ++ b)) = some (a, b) := by
  rw [splitOnce?_append_of, splitOnce?_self_append hs]
  · simp
  · exact fun s hne hsuf => hu.not_prefix_append hne fun hi => h (hi.trans hsuf.isInfix)

/-! ## Two separators in a row -/

/-- Behind text without the separator two separators in a row are found right there. -/
theorem splitOnce?_twice {sep a : List α} (hu : Unbordered sep) (hs : sep ≠ []) (h : ¬ sep <:+: a) (t : List α) :
    splitOnce? (sep ++ sep) (a ++ (sep ++ (sep ++ t))) = some (a, t) := by
  rw [splitOnce?_append_of, ← List.append_assoc sep, splitOnce?_self_append (by simpa using hs)]
  · simp
  · exact fun s hne hsuf hp => hu.not_prefix_append hne (fun hi => h (hi.trans hsuf.isInfix))
      ((List.prefix_append sep sep).trans hp)

/-- One separator alone is passed over with the text in front of it. -/
theorem splitOnce?_twice_of_not {sep a t : List α} (hu : Unbordered sep) (h : ¬ sep <:+: a) (ht : ¬ sep <+: t) :
    splitOnce? (sep ++ sep) (a ++ (sep ++ t)) =
      (splitOnce? (sep ++ sep) t).map fun (u, v) => (a ++ (sep ++ u), v) := by
  have hsep : splitOnce? (sep ++ sep) (sep ++ t) =
      (splitOnce? (sep ++ sep) t).map fun (u, v) => (sep ++ u, v) := by
    refine splitOnce?_append_of fun s hne hsuf hp => ?_
    by_cases hl : s.length < sep.length
    · exact hu.not_prefix hne hl hsuf ((List.prefix_append sep sep).trans hp)
    · obtain rfl := hsuf.eq_of_length_le (by omega)
      exact ht ((List.prefix_append_right_inj s).1 hp)
  -- the text is passed over first, then the separator behind it
  rw [splitOnce?_append_of, hsep]
  · cases splitOnce? (sep ++ sep) t <;> simp
  · exact fun s hne hsuf hp => hu.not_prefix_append hne (fun hi => h (hi.trans hsuf.isInfix))
      ((List.prefix_append sep sep).trans hp)

/-! ## All occurrences -/

omit [LawfulBEq α] in
theorem splitSkipping_eq (sep : List α) (k : Nat) (xs : List α) :
    splitSkipping sep k xs = splitSkipping sep 0 (xs.drop k) := by
  induction k generalizing xs with
  | zero => rfl
  | succ k ih =>
    cases xs with
    | nil => rfl
    | cons x xs =>
      rw [splitSkipping, ih]
      rfl

omit [LawfulBEq α] in
/-- The first piece stands in front of the first occurrence, the others come from what is behind. -/
theorem splitAll_eq {sep : List α} (hs : sep ≠ []) (xs : List α) :
    splitAll sep xs =
      match splitOnce? sep xs with
      | none => [xs]
      | some (a, b) => a :: splitAll sep b := by
  have hpos : 0 < sep.length := List.length_pos_iff.2 hs
  unfold splitAll
  induction xs with
  | nil =>
    have : sep.isEmpty = false := by simpa using hs
    simp only [splitSkipping, splitOnce?, this]
    rfl
  | cons x xs ih =>
    rw [splitSkipping, splitOnce?]
    split
    · simp only
      rw [splitSkipping_eq, ← List.drop_succ_cons (a := x), Nat.sub_add_cancel hpos]
    · rw [ih]
      cases splitOnce? sep xs <;> rfl

theorem splitAll_of_not_infix {sep xs : List α} (hs : sep ≠ []) (h : ¬ sep <:+: xs) :
    splitAll sep xs = [xs] := by
  rw [splitAll_eq hs, splitOnce?_eq_none.2 h]

theorem splitAll_append {sep a : List α} (hu : Unbordered sep) (hs : sep ≠ []) (h : ¬ sep <:+: a)
    (b : List α) : splitAll sep (a ++ (sep ++ b)) = a :: splitAll sep b := by
  rw [splitAll_eq hs, splitOnce?_append hu hs h]

/-- What holds of the only piece of text without the separator, and of a first piece without it in
front of other pieces, holds of all the pieces of every text. -/
theorem splitAll_induction {sep : List α} (hs : sep ≠ []) {P : List α → List (List α) → Prop}
    (one : ∀ xs, ¬ sep <:+: xs → P xs [xs])
    (cut : ∀ a b ps, ¬ sep <:+: a → P b ps → P (a ++ (sep ++ b)) (a :: ps)) (xs : List α) :
    P xs (splitAll sep xs) := by
  rw [splitAll_eq hs]
  cases h : splitOnce? sep xs with
  | none => exact one xs (splitOnce?_eq_none.1 h)
  | some r =>
    obtain ⟨a, b⟩ := r
    have hx := splitOnce?_some h
    have hlt : b.length < xs.length := by
      have := List.length_pos_iff.2 hs
      rw [hx, List.length_append, List.length_append]
      omega
    have hcut := cut a b _ (not_infix_of_splitOnce? hs h) (splitAll_induction hs one cut b)
    rwa [← hx] at hcut
termination_by xs.length

omit [LawfulBEq α] in
theorem splitAll_ne_nil (sep xs : List α) : splitAll sep xs ≠ [] :=
  splitSkipping_ne_nil sep 0 xs

/-- No piece holds the separator. -/
theorem not_infix_of_mem_splitAll {sep xs : List α} (hs : sep ≠ []) : ∀ p ∈ splitAll sep xs, ¬ sep <:+: p := by
  refine splitAll_induction hs (P := fun _ ps => ∀ p ∈ ps, ¬ sep <:+: p) ?_ ?_ xs
  · intro xs h p hp
    rw [List.mem_singleton] at hp
    rwa [hp]
  · intro a b ps ha ih p hp
    rcases List.mem_cons.1 hp with rfl | hp
    · exact ha
    · exact ih p hp

/-- Every piece is a part of the whole. -/
theorem infix_of_mem_splitAll {sep xs : List α} (hs : sep ≠ []) : ∀ p ∈ splitAll sep xs, p <:+: xs := by
  refine splitAll_induction hs (P := fun xs ps => ∀ p ∈ ps, p <:+: xs) ?_ ?_ xs
  · intro xs _ p hp
    obtain rfl := List.mem_singleton.1 hp
    exact List.infix_refl p
  · intro a b ps _ ih p hp
    rcases List.mem_cons.1 hp with rfl | hp
    · exact (List.prefix_append p _).isInfix
    · exact (ih p hp).trans (List.append_assoc a sep b ▸ (List.suffix_append (a ++ sep) b).isInfix)

/-- Joining the pieces gives the whole. -/
theorem intercalate_splitAll {sep : List α} (hs : sep ≠ []) (xs : List α) :
    sep.intercalate (splitAll sep xs) = xs := by
  have h : splitAll sep xs ≠ [] ∧ sep.intercalate (splitAll sep xs) = xs := by
    refine splitAll_induction hs (P := fun xs ps => ps ≠ [] ∧ sep.intercalate ps = xs) ?_ ?_ xs
    · exact fun xs _ => ⟨List.cons_ne_nil _ _, List.intercalate_singleton⟩
    · rintro a b ps - ⟨hne, ih⟩
      refine ⟨List.cons_ne_nil _ _, ?_⟩
      rw [List.intercalate_cons_of_ne_nil hne, ih, List.append_assoc]
  exact h.2

/-- Text in front of a separator is cut as by itself. -/
theorem splitAll_append_sep {sep : List α} (hu : Unbordered sep) (hs : sep ≠ []) (a b : List α) :
    splitAll sep (a ++ (sep ++ b)) = splitAll sep a ++ splitAll sep b := by
  refine splitAll_induction hs (P := fun a ps => splitAll sep (a ++ (sep ++ b)) = ps ++ splitAll sep b) ?_ ?_ a
  · exact fun a h => splitAll_append hu hs h b
  · intro a c ps h ih
    rw [List.append_assoc, List.append_assoc, splitAll_append hu hs h, ih, List.cons_append]

/-- An empty piece behind the first shows two separators in a row in the text and the separator that ends it. -/
theorem infix_of_nil_mem_tail_splitAll {sep xs : List α} (hs : sep ≠ []) (h : [] ∈ (splitAll sep xs).tail) :
    sep ++ sep <:+: xs ++ sep := by
  -- an empty first piece shows a separator at the front
  have hpieces : ((splitAll sep xs).head? = some [] → sep <+: xs ++ sep) ∧
      ([] ∈ (splitAll sep xs).tail → sep ++ sep <:+: xs ++ sep) := by
    refine splitAll_induction hs (P := fun xs ps => (ps.head? = some [] → sep <+: xs ++ sep) ∧
      ([] ∈ ps.tail → sep ++ sep <:+: xs ++ sep)) ?_ ?_ xs
    · intro xs _
      refine ⟨fun hx => ?_, fun hm => absurd hm List.not_mem_nil⟩
      obtain rfl : xs = [] := Option.some.inj hx
      exact List.prefix_refl sep
    · rintro a b ps - ⟨hhead, htail⟩
      constructor
      · intro ha
        obtain rfl : a = [] := Option.some.inj ha
        rw [List.nil_append, List.append_assoc]
        exact List.prefix_append sep _
      · intro hm
        rw [List.tail_cons] at hm
        rw [List.append_assoc, List.append_assoc]
        refine List.IsInfix.trans ?_ (List.suffix_append a _).isInfix
        cases ps with
        | nil => cases hm
        | cons p ps =>
          rcases List.mem_cons.1 hm with rfl | hm
          · exact ((List.prefix_append_right_inj sep).2 (hhead rfl)).isInfix
          · exact (htail hm).trans (List.suffix_append sep _).isInfix
  exact hpieces.2 h

omit [BEq α] [LawfulBEq α] in
/-- What holds of a separator and of all pieces holds of the pieces put together. -/
theorem forall_mem_intercalate {P : α → Prop} {sep : List α} (hs : ∀ x ∈ sep, P x) :
    ∀ {ps : List (List α)}, (∀ p ∈ ps, ∀ x ∈ p, P x) → ∀ x ∈ sep.intercalate ps, P x
  | [], _, x, hx => by
    rw [List.intercalate_nil] at hx
    cases hx
  | [p], h, x, hx => by
    rw [List.intercalate_singleton] at hx
    exact h p (List.mem_singleton_self p) x hx
  | p :: q :: ps, h, x, hx => by
    rw [List.forall_mem_cons] at h
    rw [List.intercalate_cons_cons, List.mem_append, List.mem_append] at hx
    rcases hx with (hx | hx) | hx
    · exact h.1 x hx
    · exact hs x hx
    · exact forall_mem_intercalate hs h.2 x hx

/-- Joined pieces are found again. -/
theorem splitAll_intercalate {sep : List α} (hu : Unbordered sep) (hs : sep ≠ []) :
    ∀ {ps : List (List α)}, ps ≠ [] → (∀ p ∈ ps, ¬ sep <:+: p) → splitAll sep (sep.intercalate ps) = ps
  | [p], _, h => by
    rw [List.intercalate_singleton, splitAll_of_not_infix hs (h p (List.mem_singleton_self p))]
  | p :: q :: ps, _, h => by
    rw [List.intercalate_cons_cons, List.append_assoc, splitAll_append hu hs (h p (List.mem_cons_self ..)),
      splitAll_intercalate hu hs (List.cons_ne_nil q ps) fun p hp => h p (List.mem_cons_of_mem _ hp)]

/-! ## Lines with their ends -/

omit [BEq α] [LawfulBEq α] in
/-- Lines written with their ends and a blank line behind them are joined with two blank pieces. -/
theorem intercalate_ended (sep : List α) : ∀ (first : List α) (lines : List (List α)),
    sep.intercalate (first :: (lines ++ [[], []])) = first ++ (sep ++ (lines.flatMap (· ++ sep) ++ sep))
  | first, [] => by simp [List.intercalate_cons_cons]
  | first, l :: lines => by
    rw [List.cons_append, List.intercalate_cons_cons, intercalate_ended sep l lines, List.flatMap_cons]
    simp only [List.append_assoc]

end Upnp.Text
