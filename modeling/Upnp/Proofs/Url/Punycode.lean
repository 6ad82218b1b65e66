import Mathlib.Tactic.Ring
import Upnp.Proofs.Text.Run
import Upnp.Url.Punycode

/-
Punycode is read as it was written. While the encoder passes over the text for one code point after the other,
the decoder holds the characters that are handled so far, in their order; the distance that is written is how far
the encoder has come since the last insertion, counted in places between these characters, so the decoder finds
the next character and its place by dividing by the number of places.
-/

namespace Upnp.Url.Punycode

open Upnp.Text

/-! ## Distances -/

theorem digitValue?_digitChar : ∀ d < 36, digitValue? (digitChar d) = some d := by
  decide

/-- Written distances are not empty, and made of digits. -/
theorem mem_writeDistance (bias k delta : Nat) :
    writeDistance bias k delta ≠ [] ∧ ∀ c ∈ writeDistance bias k delta, ∃ d < 36, c = digitChar d := by
  induction delta using Nat.strongRecOn generalizing k with
  | ind delta ih =>
    obtain ⟨hlow, hhigh⟩ := threshold_bounds k bias
    rw [writeDistance]
    split
    · exact ⟨List.cons_ne_nil _ _, List.forall_mem_singleton.2 ⟨delta, by omega, rfl⟩⟩
    · have hmod := Nat.mod_lt (delta - threshold k bias) (show 0 < 36 - threshold k bias by omega)
      have hless := Nat.div_le_self (delta - threshold k bias) (36 - threshold k bias)
      exact ⟨List.cons_ne_nil _ _, List.forall_mem_cons.2 ⟨⟨_, by omega, rfl⟩, (ih _ (by omega) _).2⟩⟩

/-- A distance is read as it was written, whatever stands behind it. -/
theorem readDistance?_writeDistance (bias k weight delta : Nat) (rest : List Char) :
    readDistance? bias k weight (writeDistance bias k delta ++ rest) = some (delta * weight, rest) := by
  induction delta using Nat.strongRecOn generalizing k weight with
  | ind delta ih =>
    obtain ⟨hlow, hhigh⟩ := threshold_bounds k bias
    rw [writeDistance]
    split
    · rename_i hlast
      rw [List.singleton_append, readDistance?, digitValue?_digitChar delta (by omega)]
      exact if_pos hlast
    · rename_i hmore
      have hmod := Nat.mod_lt (delta - threshold k bias) (show 0 < 36 - threshold k bias by omega)
      have hless := Nat.div_le_self (delta - threshold k bias) (36 - threshold k bias)
      have hsum := Nat.mod_add_div' (delta - threshold k bias) (36 - threshold k bias)
      generalize hr : (delta - threshold k bias) % (36 - threshold k bias) = r at hmod hsum ⊢
      generalize hq : (delta - threshold k bias) / (36 - threshold k bias) = q at hless hsum ⊢
      have hvalue : (threshold k bias + r) * weight + q * (weight * (36 - threshold k bias)) = delta * weight := by
        have hdelta : delta = threshold k bias + r + q * (36 - threshold k bias) := by omega
        rw [hdelta]
        ring
      rw [List.cons_append, readDistance?, digitValue?_digitChar _ (by omega)]
      simp only [Option.bind_eq_bind, Option.bind_some, ih q (by omega)]
      rw [if_neg (by omega), hvalue]

/-! ## Insertions -/

/-- The encoder is at the code point `m`, with a front of the text passed over and the rest before it; the decoder
has read all that was written, and stands with the code point `n` at a place between the characters in `out`. These
are the ones that are handled, and the distance that is not yet written leads from the one stand to the other. -/
structure Meets (m : Nat) (passed rest : List Char) (s : State) (n place : Nat) (out : List Char) : Prop where
  out_eq : out = passed.filter (·.toNat ≤ m) ++ rest.filter (·.toNat < m)
  handled : s.handled = out.length
  le : n ≤ m
  delta : place + s.delta = (m - n) * (out.length + 1) + (passed.filter (·.toNat ≤ m)).length

/-- One insertion, of the character at the place that the distance leads to. -/
theorem decodeFrom_writeDistance {m n place bias delta : Nat} {first : Bool} {a b tail : List Char} {c : Char}
    (hm : 128 ≤ m) (hc : c.toNat = m) (hle : n ≤ m)
    (hd : place + delta = (m - n) * ((a ++ b).length + 1) + a.length) (fuel : Nat) :
    decodeFrom (fuel + 1) n place bias first (a ++ b) (writeDistance bias 36 delta ++ tail) =
      decodeFrom fuel m (a.length + 1) (adapt delta ((a ++ b).length + 1) first) false (a ++ c :: b) tail := by
  have hne : writeDistance bias 36 delta ++ tail ≠ [] := by
    simp [(mem_writeDistance bias 36 delta).1]
  have hplace : a.length < (a ++ b).length + 1 := by
    rw [List.length_append]
    omega
  have hdiv : (place + delta) / ((a ++ b).length + 1) = m - n := by
    rw [hd, Nat.mul_comm, Nat.mul_add_div (Nat.succ_pos _), Nat.div_eq_of_lt hplace, Nat.add_zero]
  have hmod : (place + delta) % ((a ++ b).length + 1) = a.length := by
    rw [hd, Nat.mul_comm, Nat.mul_add_mod, Nat.mod_eq_of_lt hplace]
  have hvalid : (n + (m - n)).isValidChar ∧ 128 ≤ n + (m - n) := by
    rw [Nat.add_sub_of_le hle, ← hc]
    exact ⟨c.valid, hc ▸ hm⟩
  rw [decodeFrom]
  · rw [readDistance?_writeDistance]
    simp only [Nat.mul_one, Option.bind_eq_bind, Option.bind_some, hdiv, hmod]
    rw [if_pos hvalid, Nat.add_sub_of_le hle, ← hc, Char.ofNat_toNat, List.take_left, List.drop_left]
  · exact hne

section

variable {m n place : Nat} {c : Char} {passed rest out : List Char} {s : State}

/-- A character below the code point is one more place on the way. -/
theorem Meets.pass (h : Meets m passed (c :: rest) s n place out) (hc : c.toNat < m) :
    Meets m (passed ++ [c]) rest { s with delta := s.delta + 1 } n place out := by
  obtain ⟨hout, hh, hle, hd⟩ := h
  refine ⟨?_, hh, hle, ?_⟩
  · rw [hout]
    simp [hc, hc.le]
  · simp only [List.filter_append, List.length_append]
    simp only [hc.le, decide_true, List.filter_cons_of_pos, List.filter_nil, List.length_singleton]
    omega

/-- A character above it does not count yet. -/
theorem Meets.skip (h : Meets m passed (c :: rest) s n place out) (hc : m < c.toNat) :
    Meets m (passed ++ [c]) rest s n place out := by
  obtain ⟨hout, hh, hle, hd⟩ := h
  have hless : ¬ c.toNat < m := by omega
  have hmore : ¬ c.toNat ≤ m := by omega
  refine ⟨?_, hh, hle, ?_⟩
  · rw [hout]
    simp [hless, hmore]
  · rw [hd]
    simp [hmore]

/-- The decoder is where the encoder is behind an insertion. -/
theorem Meets.insert (h : Meets m passed (c :: rest) s n place out) (hc : c.toNat = m) (bias : Nat) (first : Bool) :
    Meets m (passed ++ [c]) rest ⟨0, bias, s.handled + 1, first⟩ m ((passed.filter (·.toNat ≤ m)).length + 1)
      (passed.filter (·.toNat ≤ m) ++ c :: rest.filter (·.toNat < m)) := by
  obtain ⟨hout, hh, -, -⟩ := h
  refine ⟨?_, ?_, Nat.le_refl m, ?_⟩
  · simp [hc]
  · rw [hh, hout]
    simp [hc]
    omega
  · simp [hc]

/-- All insertions of one code point are read. -/
theorem decodeFrom_insertAll (hm : 128 ≤ m) (h : Meets m passed rest s n place out) {fuel : Nat} {tail : List Char}
    (hf : ((insertAll m s rest).2 ++ tail).length < fuel) : ∃ fuel' n' place' out', tail.length < fuel' ∧
      Meets m (passed ++ rest) [] (insertAll m s rest).1 n' place' out' ∧
      decodeFrom fuel n place s.bias s.first out ((insertAll m s rest).2 ++ tail) =
        decodeFrom fuel' n' place' (insertAll m s rest).1.bias (insertAll m s rest).1.first out' tail := by
  induction rest generalizing passed s n place out fuel with
  | nil =>
    rw [List.append_nil]
    exact ⟨fuel, n, place, out, hf, h, rfl⟩
  | cons c rest ih =>
    rw [List.append_cons]
    unfold insertAll at hf ⊢
    rcases Nat.lt_trichotomy c.toNat m with hc | hc | hc
    · simp only [if_pos hc] at hf ⊢
      exact ih (h.pass hc) hf
    · have hless : ¬ c.toNat < m := by omega
      simp only [if_neg hless, if_pos hc] at hf ⊢
      rw [List.append_assoc (writeDistance s.bias 36 s.delta)] at hf ⊢
      rw [List.length_append] at hf
      have hstep := h.insert hc (adapt s.delta (s.handled + 1) s.first) false
      have hpos := List.length_pos_iff.2 (mem_writeDistance s.bias 36 s.delta).1
      obtain ⟨fuel, rfl⟩ : ∃ k, fuel = k + 1 := ⟨fuel - 1, by omega⟩
      have hout := h.out_eq
      rw [List.filter_cons_of_neg (by simpa using hless)] at hout
      have hd := h.delta
      rw [hout] at hd
      rw [hout, decodeFrom_writeDistance hm hc h.le hd, ← hout, ← h.handled]
      exact ih hstep (by omega)
    · have hless : ¬ c.toNat < m := by omega
      have hne : c.toNat ≠ m := by omega
      simp only [if_neg hless, if_neg hne] at hf ⊢
      exact ih (h.skip hc) hf

end

/-! ## All code points -/

/-- Between two code points of the text the way goes on, over all places for each that is left out. -/
theorem Meets.next {l m n place : Nat} {text out : List Char} {s : State} (h : Meets l [] text s n place out)
    (hle : l ≤ m) (hnone : ∀ c ∈ text, c.toNat < l ∨ m ≤ c.toNat) :
    Meets m [] text { s with delta := s.delta + (m - l) * (s.handled + 1) } n place out := by
  obtain ⟨hout, hh, hn, hd⟩ := h
  refine ⟨?_, hh, hn.trans hle, ?_⟩
  · rw [hout, List.filter_nil, List.nil_append, List.filter_nil, List.nil_append]
    refine List.filter_congr fun c hc => decide_eq_decide.2 ?_
    have := hnone c hc
    omega
  · have hsplit : m - n = (m - l) + (l - n) := by omega
    rw [hh, ← Nat.add_assoc, hd, hsplit, Nat.add_mul]
    simp only [List.filter_nil, List.length_nil]
    omega

/-- Behind the text, one step leads to the front and to the next code point. -/
theorem Meets.wrap {m n place : Nat} {text out : List Char} {s : State} (h : Meets m text [] s n place out) :
    Meets (m + 1) [] text { s with delta := s.delta + 1 } n place out := by
  obtain ⟨hout, hh, hn, hd⟩ := h
  rw [List.filter_nil, List.append_nil] at hout
  refine ⟨?_, hh, Nat.le_succ_of_le hn, ?_⟩
  · rw [hout, List.filter_nil, List.nil_append]
    exact List.filter_congr fun c _ => decide_eq_decide.2 Nat.lt_succ_iff.symm
  · have hsplit : m + 1 - n = (m - n) + 1 := by omega
    rw [← hout] at hd
    rw [← Nat.add_assoc, hd, hsplit, Nat.add_mul, List.filter_nil, List.length_nil]
    omega

/-- What is written for the code points of a text that are left, in ascending order, is read as that text. -/
theorem decodeFrom_encodeFrom {text out : List Char} {ms : List Nat} {l n place fuel : Nat} {s : State}
    (h : Meets l [] text s n place out) (hlow : 128 ≤ l) (hsorted : ms.Pairwise (· < ·)) (hle : ∀ m ∈ ms, l ≤ m)
    (hall : ∀ c ∈ text, c.toNat < l ∨ c.toNat ∈ ms) (hf : (encodeFrom text ms l s).length < fuel) :
    decodeFrom fuel n place s.bias s.first out (encodeFrom text ms l s) = some text := by
  induction ms generalizing l n place fuel s out with
  | nil =>
    have hout : out = text := by
      rw [h.out_eq, List.filter_nil, List.nil_append, List.filter_eq_self]
      exact fun c hc => decide_eq_true ((hall c hc).resolve_right List.not_mem_nil)
    rw [encodeFrom, decodeFrom, hout]
  | cons m ms ih =>
    obtain ⟨hmin, hsorted⟩ := List.pairwise_cons.1 hsorted
    obtain ⟨hlm, hle⟩ := List.forall_mem_cons.1 hle
    have hnone : ∀ c ∈ text, c.toNat < l ∨ m ≤ c.toNat := fun c hc => (hall c hc).imp_right fun hm => by
      rcases List.mem_cons.1 hm with hm | hm
      · exact hm.ge
      · exact (hmin _ hm).le
    have hstart := h.next hlm hnone
    rw [encodeFrom] at hf ⊢
    simp only at hf ⊢
    obtain ⟨fuel', n', place', out', hfuel, hmeets, hread⟩ := decodeFrom_insertAll (hlow.trans hlm) hstart hf
    rw [hread]
    refine ih hmeets.wrap (by omega) hsorted (fun m' hm' => hmin m' hm') (fun c hc => ?_) hfuel
    rcases hall c hc with hl | hm
    · left
      omega
    · rcases List.mem_cons.1 hm with hm | hm
      · left
        omega
      · exact .inr hm

/-! ## Whole texts -/

/-- Each of the numbers once, in ascending order. -/
theorem pairwise_eraseDups {ns : List Nat} (h : ns.Pairwise (· ≤ ·)) : ns.eraseDups.Pairwise (· < ·) := by
  match ns with
  | [] => exact .nil
  | n :: ns =>
    obtain ⟨hmin, hns⟩ := List.pairwise_cons.1 h
    rw [List.eraseDups_cons]
    refine List.pairwise_cons.2 ⟨fun m hm => ?_, pairwise_eraseDups (hns.filter _)⟩
    obtain ⟨hmem, hne⟩ := List.mem_filter.1 (List.mem_eraseDups.1 hm)
    have hle := hmin m hmem
    have hne : m ≠ n := by simpa using hne
    omega
termination_by ns.length
decreasing_by exact Nat.lt_succ_of_le (List.length_filter_le _ _)

/-- The code points of a text outside ASCII, in ascending order. -/
theorem pairwise_others (text : List Char) :
    (((text.filter (128 ≤ ·.toNat)).map Char.toNat).mergeSort.eraseDups).Pairwise (· < ·) := by
  refine pairwise_eraseDups ((List.pairwise_mergeSort ?_ ?_ _).imp fun h => of_decide_eq_true h)
  · intro a b c hab hbc
    exact decide_eq_true ((of_decide_eq_true hab).trans (of_decide_eq_true hbc))
  · intro a b
    have := Nat.le_total a b
    simpa using this

theorem mem_others {text : List Char} {m : Nat} :
    m ∈ ((text.filter (128 ≤ ·.toNat)).map Char.toNat).mergeSort.eraseDups ↔ ∃ c ∈ text, c.toNat = m ∧ 128 ≤ m := by
  rw [List.mem_eraseDups, List.mem_mergeSort, List.mem_map]
  simp only [List.mem_filter, decide_eq_true_eq]
  constructor
  · rintro ⟨c, ⟨hc, hle⟩, rfl⟩
    exact ⟨c, hc, rfl, hle⟩
  · rintro ⟨c, hc, rfl, hle⟩
    exact ⟨c, ⟨hc, hle⟩, rfl⟩

/-- All that is written behind the ASCII characters is digits. -/
theorem mem_insertAll (m : Nat) (s : State) (text : List Char) :
    ∀ c ∈ (insertAll m s text).2, ∃ d < 36, c = digitChar d := by
  induction text generalizing s with
  | nil => exact fun c hc => absurd hc List.not_mem_nil
  | cons x text ih =>
    unfold insertAll
    split
    · exact ih _
    · split
      · exact List.forall_mem_append.2 ⟨(mem_writeDistance _ _ _).2, ih _⟩
      · exact ih _

theorem mem_encodeFrom (text : List Char) (ms : List Nat) (n : Nat) (s : State) :
    ∀ c ∈ encodeFrom text ms n s, ∃ d < 36, c = digitChar d := by
  induction ms generalizing n s with
  | nil => exact fun c hc => absurd hc List.not_mem_nil
  | cons m ms ih =>
    rw [encodeFrom]
    exact List.forall_mem_append.2 ⟨mem_insertAll _ _ _, ih _ _⟩

/-- Written text is made of ASCII characters of the text, of hyphens and of digits. -/
theorem mem_encode {text : List Char} {c : Char} (h : c ∈ encode text) :
    (c ∈ text ∧ c.toNat < 128) ∨ c = '-' ∨ ∃ d < 36, c = digitChar d := by
  unfold encode at h
  rcases List.mem_append.1 h with h | h
  · split at h
    · exact absurd h List.not_mem_nil
    · rcases List.mem_append.1 h with h | h
      · left
        simpa using h
      · exact .inr (.inl (List.mem_singleton.1 h))
  · exact .inr (.inr (mem_encodeFrom _ _ _ _ c h))

theorem digitChar_ascii : ∀ d < 36, (digitChar d).toNat < 128 ∧ digitChar d ≠ '-' := by
  decide

theorem encode_ascii {text : List Char} {c : Char} (h : c ∈ encode text) : c.toNat < 128 := by
  rcases mem_encode h with ⟨-, hc⟩ | rfl | ⟨d, hd, rfl⟩
  · exact hc
  · decide
  · exact (digitChar_ascii d hd).1

/-- The last hyphen stands between the ASCII characters and the digits. -/
theorem split_lead (basic : List Char) {digits : List Char} (hd : '-' ∉ digits) :
    (((if basic.isEmpty then [] else basic ++ ['-']) ++ digits).reverse.takeWhile (· != '-')).reverse = digits ∧
      ((((if basic.isEmpty then [] else basic ++ ['-']) ++ digits).reverse.dropWhile (· != '-')).drop 1).reverse =
        basic := by
  have hdigits : ∀ c ∈ digits.reverse, (c != '-') = true := fun c hc => by
    rw [bne_iff_ne]
    rintro rfl
    exact hd (List.mem_reverse.1 hc)
  cases basic with
  | nil =>
    obtain ⟨htake, hdrop⟩ := takeWhile_append_of_head (b := []) hdigits fun c hc => by cases hc
    rw [List.append_nil] at htake hdrop
    simp only [List.isEmpty_nil, if_true, List.nil_append, htake, hdrop, List.reverse_reverse]
    exact ⟨trivial, rfl⟩
  | cons c basic =>
    have hlead : ((if (c :: basic).isEmpty then [] else c :: basic ++ ['-']) ++ digits).reverse =
        digits.reverse ++ '-' :: (c :: basic).reverse := by
      simp
    obtain ⟨htake, hdrop⟩ := takeWhile_append_of_head (b := '-' :: (c :: basic).reverse) hdigits fun d hd => by
      cases hd
      decide
    rw [hlead, htake, hdrop, List.drop_one, List.tail_cons, List.reverse_reverse, List.reverse_reverse]
    exact ⟨rfl, rfl⟩

/-- Punycode is read as it was written. -/
theorem decode?_encode (text : List Char) : decode? (encode text) = some text := by
  have hmeets : Meets 128 [] text ⟨0, 72, (text.filter (·.toNat < 128)).length, true⟩ 128 0
      (text.filter (·.toNat < 128)) := by
    refine ⟨rfl, rfl, Nat.le_refl _, ?_⟩
    simp
  have hall : ∀ c ∈ text, c.toNat < 128 ∨
      c.toNat ∈ ((text.filter (128 ≤ ·.toNat)).map Char.toNat).mergeSort.eraseDups := by
    intro c hc
    rcases Nat.lt_or_ge c.toNat 128 with hlt | hge
    · exact .inl hlt
    · exact .inr (mem_others.2 ⟨c, hc, rfl, hge⟩)
  have hleast : ∀ m ∈ ((text.filter (128 ≤ ·.toNat)).map Char.toNat).mergeSort.eraseDups, 128 ≤ m :=
    fun m hm => (mem_others.1 hm).choose_spec.2.2
  have hhyphen : '-' ∉ encodeFrom text ((text.filter (128 ≤ ·.toNat)).map Char.toNat).mergeSort.eraseDups 128
      ⟨0, 72, (text.filter (·.toNat < 128)).length, true⟩ := by
    intro h
    obtain ⟨d, hd, he⟩ := mem_encodeFrom _ _ _ _ _ h
    exact (digitChar_ascii d hd).2 he.symm
  obtain ⟨hdigits, hbasic⟩ := split_lead (text.filter (·.toNat < 128)) hhyphen
  have hascii : (encode text).all (·.toNat < 128) = true :=
    List.all_eq_true.2 fun c hc => decide_eq_true (encode_ascii hc)
  unfold decode?
  rw [if_pos hascii]
  unfold encode at hascii ⊢
  simp only
  rw [hdigits, hbasic]
  refine decodeFrom_encodeFrom hmeets (Nat.le_refl _) (pairwise_others text) hleast hall ?_
  rw [List.length_append]
  omega

end Upnp.Url.Punycode
