import Upnp.Proofs.Url.Domain

/-
Addresses as hosts. A number is written without leading zeros and read back from its digits; the text of an
IPv4 address is read as the address, and so is that of an IPv6 address, with its longest run of zeros left out.
-/

namespace Upnp.Url

open Upnp.Text

/-! ## Numbers -/

/-- Going over the digits of a number from the left reaches the number, if each digit is counted. -/
theorem foldl_toDigits {β : Type} (count : Nat → β) {base : Nat} (hb : 1 < base) {f : β → Char → β}
    (hf : ∀ n, ∀ d < base, f (count n) (Nat.digitChar d) = count (n * base + d)) (n : Nat) :
    (Nat.toDigits base n).foldl f (count 0) = count n := by
  induction n using Nat.strongRecOn with
  | ind n ih =>
    rw [Nat.toDigits_eq_if hb]
    split
    · rename_i hn
      rw [List.foldl_cons, hf 0 n hn, Nat.zero_mul, Nat.zero_add, List.foldl_nil]
    · rename_i hn
      have hless : n / base < n := Nat.div_lt_self (by omega) hb
      rw [List.foldl_append, ih _ hless, List.foldl_cons, hf _ _ (Nat.mod_lt n (by omega)), Nat.div_add_mod',
        List.foldl_nil]

theorem toList_toString (n : Nat) : (toString n).toList = Nat.toDigits 10 n :=
  String.toList_ofList

theorem mem_toDigits {base n : Nat} (hb : 1 < base) {c : Char} (h : c ∈ Nat.toDigits base n) :
    ∃ d < base, Nat.digitChar d = c := by
  induction n using Nat.strongRecOn with
  | ind n ih =>
    rw [Nat.toDigits_eq_if hb] at h
    split at h
    · rename_i hn
      exact ⟨n, hn, (List.mem_singleton.1 h).symm⟩
    · rcases List.mem_append.1 h with h | h
      · exact ih (n / base) (Nat.div_lt_self (by omega) hb) h
      · exact ⟨n % base, Nat.mod_lt n (by omega), (List.mem_singleton.1 h).symm⟩

theorem hexDigit?_digitChar : ∀ d < 16, Percent.hexDigit? (Nat.digitChar d).toNat = some d := by
  decide

theorem digitChar_ne_zero : ∀ d < 10, 0 < d → Nat.digitChar d ≠ '0' := by
  decide

theorem head_toDigits {n : Nat} (hn : 0 < n) : (Nat.toDigits 10 n).head? ≠ some '0' := by
  induction n using Nat.strongRecOn with
  | ind n ih =>
    rw [Nat.toDigits_eq_if (by decide)]
    split
    · rename_i hlt
      exact fun h => digitChar_ne_zero n hlt hn (Option.some.inj h)
    · rw [List.head?_append_of_ne_nil _ Nat.toDigits_ne_nil]
      exact ih (n / 10) (by omega) (by omega)

/-- A decimal number is no octal one, as it has no leading zero. -/
theorem readIpv4Number?_toDigits (n : Nat) : readIpv4Number? (Nat.toDigits 10 n) = some n := by
  by_cases hn : 0 < n
  · have hread : readIpv4Number?.digits 10 (Nat.toDigits 10 n) = some n := by
      unfold readIpv4Number?.digits
      rw [List.foldlM_eq_foldl]
      refine foldl_toDigits some (by decide) (fun m d hd => ?_) n
      rw [Option.bind_eq_bind, Option.bind_some, hexDigit?_digitChar d (by omega)]
      exact if_pos hd
    have hhead := head_toDigits hn
    have hne : Nat.toDigits 10 n ≠ [] := Nat.toDigits_ne_nil
    generalize Nat.toDigits 10 n = cs at hread hhead hne
    unfold readIpv4Number?
    split
    · exact absurd rfl hne
    · exact absurd rfl hhead
    · exact absurd rfl hhead
    · exact absurd rfl hhead
    · exact hread
  · obtain rfl : n = 0 := by omega
    decide

/-! ## IPv4 -/

/-- The octets of an address, from the left. -/
def octets (n : Nat) : List Nat :=
  [16777216, 65536, 256, 1].map fun unit => n / unit % 256

theorem toList_writeIpv4 (n : Nat) : (writeIpv4 n).toList = ['.'].intercalate ((octets n).map (Nat.toDigits 10)) := by
  unfold writeIpv4 octets
  rw [String.toList_intercalate, List.map_map, List.map_map]
  simp only [Function.comp_def, toList_toString]
  rfl

theorem isLabelChar_decimal : ∀ d < 10, IsLabelChar (Nat.digitChar d) ∧ Nat.digitChar d ≠ 'x' ∧
    isForbiddenInDomain (Nat.digitChar d) = false := by
  have hall : ∀ d < 10, (Nat.digitChar d).toNat < 128 ∧ IsLower (Nat.digitChar d) ∧ Nat.digitChar d ≠ '.' ∧
      Nat.digitChar d ≠ 'x' ∧ isForbiddenInDomain (Nat.digitChar d) = false := by decide +kernel
  intro d hd
  obtain ⟨hascii, hlower, hdot, hx, hallowed⟩ := hall d hd
  exact ⟨⟨hascii, hlower, hdot⟩, hx, hallowed⟩

theorem splitAll_writeIpv4 (n : Nat) :
    splitAll ['.'] (writeIpv4 n).toList = (octets n).map (Nat.toDigits 10) := by
  rw [toList_writeIpv4]
  refine splitAll_intercalate (unbordered_singleton '.') (List.cons_ne_nil _ _) (by simp [octets]) fun p hp hdot => ?_
  obtain ⟨m, -, rfl⟩ := List.mem_map.1 hp
  obtain ⟨d, hd, heq⟩ := mem_toDigits (by decide) ((List.singleton_infix_iff _ _).1 hdot)
  exact (isLabelChar_decimal d hd).1.not_dot heq

theorem asciiLabel?_toDigits (n : Nat) : asciiLabel? (Nat.toDigits 10 n) = some (Nat.toDigits 10 n) := by
  have hchars : ∀ c ∈ Nat.toDigits 10 n, c.toNat < 128 ∧ c ≠ 'x' := by
    intro c hc
    obtain ⟨d, hd, rfl⟩ := mem_toDigits (by decide) hc
    exact ⟨(isLabelChar_decimal d hd).1.ascii, (isLabelChar_decimal d hd).2.1⟩
  generalize Nat.toDigits 10 n = cs at hchars
  unfold asciiLabel?
  rw [if_pos (List.all_eq_true.2 fun c hc => decide_eq_true (hchars c hc).1)]
  split
  · exact absurd rfl (hchars 'x' List.mem_cons_self).2
  · rfl

/-- The text of an address is a domain in ASCII form. -/
theorem asciiDomain?_writeIpv4 (n : Nat) : asciiDomain? (writeIpv4 n).toList = some (writeIpv4 n).toList := by
  have hdigits : ∀ l ∈ (octets n).map (Nat.toDigits 10), asciiLabel? l = some l ∧
      ∀ c ∈ l, IsLabelChar c ∧ isForbiddenInDomain c = false := by
    intro l hl
    obtain ⟨m, -, rfl⟩ := List.mem_map.1 hl
    refine ⟨asciiLabel?_toDigits m, fun c hc => ?_⟩
    obtain ⟨d, hd, rfl⟩ := mem_toDigits (by decide) hc
    exact ⟨(isLabelChar_decimal d hd).1, (isLabelChar_decimal d hd).2.2⟩
  rw [toList_writeIpv4]
  exact asciiDomain?_intercalate (by simp [octets])
    (fun l hl => ⟨(hdigits l hl).1, fun c hc => ((hdigits l hl).2 c hc).1⟩)
    (forall_mem_intercalate (List.forall_mem_singleton.2 (by decide)) fun l hl c hc => ((hdigits l hl).2 c hc).2)

theorem getLast?_octets (n : Nat) : ((octets n).map (Nat.toDigits 10)).getLast? = some (Nat.toDigits 10 (n % 256)) := by
  simp [octets]

theorem endsInNumber_writeIpv4 (n : Nat) : endsInNumber (writeIpv4 n).toList = true := by
  have hlabels : (labelsOf (writeIpv4 n).toList).getLast? = some (Nat.toDigits 10 (n % 256)) := by
    unfold labelsOf
    simp only
    rw [splitAll_writeIpv4, getLast?_octets, if_neg (by simp), getLast?_octets]
  unfold endsInNumber
  rw [hlabels]
  simp [readIpv4Number?_toDigits]

/-- Four octets are put together to the address that they were taken from. -/
theorem ipv4OfNumbers?_octets {n : Nat} (h : n < 2 ^ 32) : ipv4OfNumbers? (octets n) = some n := by
  have hoctet : ∀ unit, n / unit % 256 ≤ 255 := fun unit => by
    have := Nat.mod_lt (n / unit) (show 256 > 0 by decide)
    omega
  have hlast : n % 256 < 256 := Nat.mod_lt n (by decide)
  have hread : ipv4OfNumbers? (octets n) =
      some (n % 256 + n / 16777216 % 256 * 16777216 + n / 65536 % 256 * 65536 + n / 256 % 256 * 256) := by
    simp [octets, ipv4OfNumbers?, hoctet, hlast]
  rw [hread]
  exact congrArg some (by omega)

theorem readIpv4?_writeIpv4 {n : Nat} (h : n < 2 ^ 32) : readIpv4? (writeIpv4 n).toList = some n := by
  have hnumbers : ((octets n).map (Nat.toDigits 10)).mapM readIpv4Number? = some (octets n) := by
    rw [mapM_eq_some_iff, List.forall₂_map_left_iff, List.forall₂_same]
    exact fun m _ => readIpv4Number?_toDigits m
  unfold readIpv4?
  simp only
  rw [splitAll_writeIpv4, getLast?_octets, if_neg (by simp), hnumbers]
  exact ipv4OfNumbers?_octets h

/-- Octets from a place on fill no more than their share. -/
theorem foldl_octets_le {octets : List Nat} (place acc : Nat) (hplace : place + octets.length ≤ 4)
    (hoctets : ∀ x ∈ octets, x ≤ 255) :
    (octets.zipIdx place).foldl (fun acc (n, i) => acc + n * Nat.pow 256 (3 - i)) acc +
      256 ^ (4 - (place + octets.length)) ≤ acc + 256 ^ (4 - place) := by
  induction octets generalizing place acc with
  | nil => exact Nat.le_refl _
  | cons a octets ih =>
    rw [List.length_cons] at hplace ⊢
    obtain ⟨ha, hrest⟩ := List.forall_mem_cons.1 hoctets
    have hunit : 256 ^ (4 - place) = 256 * 256 ^ (3 - place) := by
      rw [← Nat.pow_succ', show (3 - place).succ = 4 - place by omega]
    have hle : a * 256 ^ (3 - place) ≤ 255 * 256 ^ (3 - place) := Nat.mul_le_mul_right _ ha
    -- an octet takes less than a whole unit of its place, and the rest fits below that unit
    have hrec := ih (place + 1) (acc + a * 256 ^ (3 - place)) (by omega) hrest
    rw [show 4 - (place + 1) = 3 - place by omega,
      show place + 1 + octets.length = place + (octets.length + 1) by omega] at hrec
    rw [List.zipIdx_cons, List.foldl_cons, hunit]
    simp only [Nat.pow_eq] at hrec ⊢
    omega

/-- What numbers stand for is an address of 32 bits. -/
theorem lt_of_ipv4OfNumbers? {numbers : List Nat} {n : Nat} (h : ipv4OfNumbers? numbers = some n) : n < 2 ^ 32 := by
  unfold ipv4OfNumbers? at h
  split at h
  · cases h
  · rename_i last front _
    simp only at h
    split at h
    · cases h
    · rename_i hbounds
      rw [Option.some.injEq] at h
      rw [not_or, not_or, Nat.not_lt, Nat.not_le] at hbounds
      obtain ⟨hlength, hoctets, hlast⟩ := hbounds
      have hall : ∀ x ∈ front.reverse, x ≤ 255 := by simpa using hoctets
      have hsum := foldl_octets_le 0 last (by omega) hall
      rw [h, Nat.zero_add] at hsum
      rw [Nat.pow_eq] at hlast
      omega

theorem lt_of_readIpv4? {cs : List Char} {n : Nat} (h : readIpv4? cs = some n) : n < 2 ^ 32 := by
  unfold readIpv4? at h
  obtain ⟨numbers, -, h⟩ := Option.bind_eq_some_iff.1 h
  exact lt_of_ipv4OfNumbers? h

/-! ## IPv6 -/

/-- Groups in hexadecimal, with colons between them. -/
def writeGroups (groups : List Nat) : List Char :=
  [':'].intercalate (groups.map (Nat.toDigits 16))

theorem toList_writeIpv6 (groups : List Nat) : (writeIpv6 groups).toList =
    match longestZeros? groups with
    | some (i, k) => writeGroups (groups.take i) ++ ':' :: ':' :: writeGroups (groups.drop (i + k))
    | none => writeGroups groups := by
  have hwrite : ∀ gs : List Nat, (":".intercalate (gs.map writeHex)).toList = writeGroups gs := by
    intro gs
    rw [String.toList_intercalate, List.map_map]
    simp only [Function.comp_def, writeHex, String.toList_ofList]
    rfl
  unfold writeIpv6
  cases longestZeros? groups with
  | none => exact hwrite groups
  | some run =>
    simp only [String.toList_append, hwrite, List.append_assoc]
    rfl

theorem mem_writeIpv6 {groups : List Nat} {c : Char} (h : c ∈ (writeIpv6 groups).toList) :
    c = ':' ∨ ∃ d < 16, Nat.digitChar d = c := by
  have hwrite : ∀ gs : List Nat, ∀ c ∈ writeGroups gs, c = ':' ∨ ∃ d < 16, Nat.digitChar d = c := by
    refine fun gs => forall_mem_intercalate (List.forall_mem_singleton.2 (.inl rfl)) (List.forall_mem_map.2 ?_)
    exact fun v _ c hc => .inr (mem_toDigits (by decide) hc)
  rw [toList_writeIpv6] at h
  split at h
  · simp only [List.mem_append, List.mem_cons] at h
    rcases h with h | h | h | h
    · exact hwrite _ c h
    · exact .inl h
    · exact .inl h
    · exact hwrite _ c h
  · exact hwrite _ c h

/-! ### Reading groups -/

theorem Groups.count_append (g : Groups) (vs : List Nat) :
    ({ g with groups := g.groups ++ vs } : Groups).count = g.count + vs.length := by
  simp only [Groups.count, List.length_append]
  omega

theorem isHex_digitChar : ∀ d < 16, isHex (Nat.digitChar d) = true := by
  decide

/-- The digits of a group in front of another character, and the value that is read of them. -/
theorem group_toDigits {v : Nat} (hv : v < 65536) (rest : List Char)
    (hr : ∀ c, rest.head? = some c → isHex c = false) :
    ∃ d ds, Nat.toDigits 16 v = d :: ds ∧ d ≠ ':' ∧ ((d :: (ds ++ rest)).takeWhile isHex).take 4 = d :: ds ∧
      (d :: ds).foldl (fun acc d => acc * 16 + (Percent.hexDigit? d.toNat).getD 0) 0 = v := by
  have hhex : ∀ c ∈ Nat.toDigits 16 v, isHex c = true := by
    intro c hc
    obtain ⟨d, hd, rfl⟩ := mem_toDigits (by decide) hc
    exact isHex_digitChar d hd
  have hlength : (Nat.toDigits 16 v).length ≤ 4 := (Nat.length_toDigits_le_iff (by decide) (by decide)).2 hv
  have hne : Nat.toDigits 16 v ≠ [] := Nat.toDigits_ne_nil
  have hvalue : (Nat.toDigits 16 v).foldl (fun acc d => acc * 16 + (Percent.hexDigit? d.toNat).getD 0) 0 = v := by
    refine foldl_toDigits id (by decide) (fun m d hd => ?_) v
    rw [hexDigit?_digitChar d hd]
    rfl
  generalize Nat.toDigits 16 v = ds at hhex hlength hne hvalue
  obtain ⟨d, ds, rfl⟩ := List.exists_cons_of_ne_nil hne
  refine ⟨d, ds, rfl, ?_, ?_, hvalue⟩
  · rintro rfl
    exact absurd (hhex ':' List.mem_cons_self) (by decide)
  · rw [← List.cons_append, (takeWhile_append_of_head hhex hr).1, List.take_of_length_le hlength]

theorem readGroups?_last {v : Nat} {g : Groups} (hg : g.count < 8) (hv : v < 65536) (fuel : Nat) :
    readGroups? (fuel + 1) g (Nat.toDigits 16 v) = some { g with groups := g.groups ++ [v] } := by
  obtain ⟨d, ds, hdigits, hcolon, htake, hvalue⟩ := group_toDigits hv [] fun c hc => by cases hc
  rw [List.append_nil] at htake
  rw [hdigits, readGroups?, if_neg (by omega), if_neg hcolon]
  simp only [htake, hvalue, List.drop_length, List.isEmpty_cons, Bool.false_eq_true, if_false]

theorem readGroups?_more {v : Nat} {g : Groups} (hg : g.count < 8) (hv : v < 65536) (fuel : Nat) (c : Char)
    (rest : List Char) : readGroups? (fuel + 1) g (Nat.toDigits 16 v ++ ':' :: c :: rest) =
      readGroups? fuel { g with groups := g.groups ++ [v] } (c :: rest) := by
  obtain ⟨d, ds, hdigits, hcolon, htake, hvalue⟩ := group_toDigits hv (':' :: c :: rest) fun c hc => by
    cases hc
    decide
  have hdrop : (d :: (ds ++ ':' :: c :: rest)).drop (d :: ds).length = ':' :: c :: rest := List.drop_left
  rw [hdigits, List.cons_append, readGroups?, if_neg (by omega), if_neg hcolon]
  simp only [htake, hvalue, hdrop]

/-! ### Groups that were written -/

/-- Groups with a colon behind each. -/
def markedGroups (groups : List Nat) : List Char :=
  groups.flatMap fun v => Nat.toDigits 16 v ++ [':']

theorem writeGroups_append_colon {groups : List Nat} (h : groups ≠ []) :
    writeGroups groups ++ [':'] = markedGroups groups := by
  unfold writeGroups markedGroups
  match groups with
  | [v] => rw [List.map_singleton, List.intercalate_singleton, List.flatMap_singleton]
  | v :: w :: groups =>
    have hrest := writeGroups_append_colon (List.cons_ne_nil w groups)
    unfold writeGroups markedGroups at hrest
    rw [List.flatMap_cons, ← hrest, List.map_cons, List.map_cons, List.intercalate_cons_cons]
    simp only [List.append_assoc]

theorem writeGroups_concat (groups : List Nat) (v : Nat) :
    writeGroups (groups ++ [v]) = markedGroups groups ++ Nat.toDigits 16 v := by
  have hmarked := writeGroups_append_colon (List.concat_ne_nil v groups)
  refine List.append_cancel_right (hmarked.trans ?_)
  rw [markedGroups, List.flatMap_append, List.flatMap_singleton, ← List.append_assoc]
  rfl

theorem length_le_markedGroups (groups : List Nat) : groups.length ≤ (markedGroups groups).length := by
  induction groups with
  | nil => exact Nat.le_refl _
  | cons v groups ih =>
    rw [markedGroups, List.flatMap_cons, List.length_append, List.length_append, List.length_cons,
      List.length_singleton]
    exact Nat.add_le_add (Nat.le_add_left _ _) ih |>.trans' (by omega)

/-- Each group takes a character at least. -/
theorem length_le_writeGroups (groups : List Nat) : groups.length ≤ (writeGroups groups).length + 1 := by
  by_cases hne : groups = []
  · subst hne
    exact Nat.zero_le _
  · have hmarked := congrArg List.length (writeGroups_append_colon hne)
    rw [List.length_append, List.length_singleton] at hmarked
    rw [hmarked]
    exact length_le_markedGroups groups

theorem exists_writeGroups {groups : List Nat} (h : groups ≠ []) : ∃ c cs, writeGroups groups = c :: cs ∧ c ≠ ':' := by
  obtain ⟨v, groups, rfl⟩ := List.exists_cons_of_ne_nil h
  obtain ⟨d, ds, hdigits⟩ := List.exists_cons_of_ne_nil (Nat.toDigits_ne_nil (b := 16) (n := v))
  have hcolon : d ≠ ':' := by
    obtain ⟨m, hm, rfl⟩ := mem_toDigits (by decide) (hdigits ▸ List.mem_cons_self : d ∈ Nat.toDigits 16 v)
    exact fun hd => absurd (hd ▸ isHex_digitChar m hm) (by decide)
  have hmarked := writeGroups_append_colon h
  rw [markedGroups, List.flatMap_cons, hdigits] at hmarked
  cases hwritten : writeGroups (v :: groups) with
  | nil =>
    rw [hwritten] at hmarked
    exact absurd (List.cons.inj hmarked).1.symm hcolon
  | cons c cs =>
    rw [hwritten] at hmarked
    exact ⟨c, cs, rfl, (List.cons.inj hmarked).1 ▸ hcolon⟩

/-- Groups with colons behind them are added, as long as there is room for them and something follows. -/
theorem readGroups?_markedGroups {groups : List Nat} (hsmall : ∀ v ∈ groups, v < 65536) {g : Groups}
    (hg : g.count + groups.length ≤ 8) (fuel : Nat) (c : Char) (rest : List Char) :
    readGroups? (groups.length + fuel) g (markedGroups groups ++ c :: rest) =
      readGroups? fuel { g with groups := g.groups ++ groups } (c :: rest) := by
  induction groups generalizing g with
  | nil =>
    rw [List.append_nil, List.length_nil, Nat.zero_add]
    rfl
  | cons v groups ih =>
    obtain ⟨hv, hsmall⟩ := List.forall_mem_cons.1 hsmall
    rw [List.length_cons] at hg ⊢
    have hnext := g.count_append [v]
    rw [List.length_singleton] at hnext
    obtain ⟨d, ds, hrest⟩ : ∃ d ds, markedGroups groups ++ c :: rest = d :: ds :=
      List.exists_cons_of_ne_nil (by simp)
    have hstep := readGroups?_more (g := g) (by omega) hv (groups.length + fuel) d ds
    rw [← hrest, ih hsmall (by rw [hnext]; omega), List.append_assoc] at hstep
    rw [markedGroups, List.flatMap_cons, List.append_assoc, List.append_assoc,
      show groups.length + 1 + fuel = groups.length + fuel + 1 by omega]
    exact hstep

/-- Written groups are added up to the end of the text. -/
theorem readGroups?_writeGroups {groups : List Nat} (hsmall : ∀ v ∈ groups, v < 65536) {g : Groups} {fuel : Nat}
    (hg : g.count + groups.length ≤ 8) (hf : groups.length ≤ fuel) :
    readGroups? fuel g (writeGroups groups) = some { g with groups := g.groups ++ groups } := by
  rcases groups.eq_nil_or_concat with rfl | ⟨front, v, rfl⟩
  · rw [List.append_nil]
    show readGroups? fuel g [] = _
    unfold readGroups?
    rfl
  · rw [List.concat_eq_append] at hsmall hg hf ⊢
    rw [List.length_append, List.length_singleton] at hg hf
    obtain ⟨hfront, hv⟩ := List.forall_mem_append.1 hsmall
    obtain ⟨fuel, rfl⟩ := Nat.exists_eq_add_of_le hf
    obtain ⟨d, ds, hdigits⟩ := List.exists_cons_of_ne_nil (Nat.toDigits_ne_nil (b := 16) (n := v))
    have hroom : ({ g with groups := g.groups ++ front } : Groups).count < 8 := by
      rw [g.count_append]
      omega
    -- all groups but the last have a colon behind them
    rw [writeGroups_concat, hdigits, Nat.add_assoc, readGroups?_markedGroups hfront (by omega), ← hdigits,
      Nat.add_comm 1, readGroups?_last hroom (hv v (List.mem_singleton_self v)), List.append_assoc]

/-! ### Runs of zeros -/

theorem drop_eq_zeros (groups : List Nat) (i : Nat) :
    groups.drop i = List.replicate (zeroRun (groups.drop i)) 0 ++ groups.drop (i + zeroRun (groups.drop i)) := by
  have hsplit := List.takeWhile_append_dropWhile (p := (· == 0)) (l := groups.drop i)
  have hzeros : (groups.drop i).takeWhile (· == 0) = List.replicate (zeroRun (groups.drop i)) 0 :=
    List.eq_replicate_iff.2 ⟨rfl, fun v hv => eq_of_beq (List.all_eq_true.1 List.all_takeWhile v hv)⟩
  have hrest : (groups.drop i).dropWhile (· == 0) = groups.drop (i + zeroRun (groups.drop i)) := by
    rw [← List.drop_drop]
    exact (List.drop_left' rfl).symm.trans (congrArg (List.drop _) hsplit)
  rw [← hzeros, ← hrest, hsplit]

/-- The longest run of zeros is one, of two groups at least. -/
theorem longestZeros?_eq_some {groups : List Nat} {i k : Nat} (h : longestZeros? groups = some (i, k)) :
    2 ≤ k ∧ groups = groups.take i ++ List.replicate k 0 ++ groups.drop (i + k) := by
  have hfold : ∀ best, (∀ j n, best = some (j, n) → 2 ≤ n ∧ n = zeroRun (groups.drop j)) →
      ∀ places : List Nat, places.foldl (fun best i =>
        let n := zeroRun (groups.drop i)
        if n ≥ 2 ∧ n > (best.map Prod.snd).getD 0 then some (i, n) else best) best = some (i, k) →
      2 ≤ k ∧ k = zeroRun (groups.drop i) := by
    intro best hbest places
    induction places generalizing best with
    | nil => exact fun h => hbest i k h
    | cons j places ih =>
      rw [List.foldl_cons]
      refine ih _ fun j' n hn => ?_
      simp only at hn
      split at hn
      · rename_i hlong
        cases hn
        exact ⟨hlong.1, rfl⟩
      · exact hbest j' n hn
  obtain ⟨htwo, hrun⟩ := hfold none (fun _ _ hn => by cases hn) _ h
  refine ⟨htwo, ?_⟩
  rw [List.append_assoc, hrun, ← drop_eq_zeros, List.take_append_drop]

/-! ### Whole addresses -/

theorem readIpv6?_of_not_colon {c : Char} {cs : List Char} (hc : c ≠ ':') :
    readIpv6? (c :: cs) = (readGroups? (cs.length + 2) ⟨[], none⟩ (c :: cs)).bind Groups.fill? := by
  unfold readIpv6?
  split
  · rename_i heq
    exact absurd (List.cons.inj heq).1 hc
  · rename_i heq
    exact absurd (List.cons.inj heq).1 hc
  · rfl

theorem readGroups?_gap {g : Groups} (hg : g.count < 8) (hgap : g.gap = none) (fuel : Nat) (rest : List Char) :
    readGroups? (fuel + 1) g (':' :: rest) = readGroups? fuel { g with gap := some g.groups.length } rest := by
  rw [readGroups?, if_neg (by omega), if_pos rfl, hgap]
  rfl

/-- A gap between groups stands for the zeros that are missing. -/
theorem readIpv6?_gap {front back : List Nat} (hfront : ∀ v ∈ front, v < 65536) (hback : ∀ v ∈ back, v < 65536)
    (hlength : front.length + back.length < 8) :
    readIpv6? (writeGroups front ++ ':' :: ':' :: writeGroups back) =
      some (front ++ List.replicate (8 - (front.length + back.length)) 0 ++ back) := by
  have hfill : Groups.fill? ⟨front ++ back, some front.length⟩ =
      some (front ++ List.replicate (8 - (front.length + back.length)) 0 ++ back) := by
    simp only [Groups.fill?, List.take_left, List.drop_left, List.length_append]
  have hbackFuel := length_le_writeGroups back
  have hread : ∀ fuel, back.length ≤ fuel →
      readGroups? fuel ⟨front, some front.length⟩ (writeGroups back) = some ⟨front ++ back, some front.length⟩ :=
    fun fuel hf => readGroups?_writeGroups hback (by simp [Groups.count]; omega) hf
  by_cases hne : front = []
  · subst hne
    have hall := hread ((writeGroups [] ++ ':' :: ':' :: writeGroups back).length + 1) (by
      simp only [List.length_append, List.length_cons]
      omega)
    exact (congrArg (·.bind Groups.fill?) hall).trans hfill
  · obtain ⟨c, cs, hwritten, hc⟩ := exists_writeGroups hne
    have hmarked : c :: (cs ++ ':' :: ':' :: writeGroups back) = markedGroups front ++ ':' :: writeGroups back := by
      rw [← writeGroups_append_colon hne, hwritten]
      simp
    -- the text has characters enough for all groups and for the gap
    have hfrontFuel := length_le_writeGroups front
    rw [hwritten, List.length_cons] at hfrontFuel
    obtain ⟨fuel, hfuel⟩ : ∃ fuel, (cs ++ ':' :: ':' :: writeGroups back).length + 2 = front.length + (fuel + 1) ∧
        back.length ≤ fuel := by
      simp only [List.length_append, List.length_cons]
      exact ⟨cs.length + ((writeGroups back).length + 1 + 1) + 2 - front.length - 1, by omega, by omega⟩
    have hroom : front.length + back.length ≤ 7 := by omega
    rw [hwritten, List.cons_append, readIpv6?_of_not_colon hc, hfuel.1, hmarked,
      readGroups?_markedGroups hfront (by simp [Groups.count]; omega), List.nil_append,
      readGroups?_gap (by simp [Groups.count]; omega) rfl, hread fuel hfuel.2]
    exact hfill

/-- The text of eight groups is read as the groups. -/
theorem readIpv6?_writeIpv6 {groups : List Nat} (hlength : groups.length = 8) (hsmall : ∀ v ∈ groups, v < 65536) :
    readIpv6? (writeIpv6 groups).toList = some groups := by
  rw [toList_writeIpv6]
  cases hzeros : longestZeros? groups with
  | none =>
    have hfuel := length_le_writeGroups groups
    obtain ⟨c, cs, hwritten, hc⟩ := exists_writeGroups (List.ne_nil_of_length_pos (by omega : 0 < groups.length))
    have hread : readGroups? (cs.length + 2) ⟨[], none⟩ (writeGroups groups) = some ⟨groups, none⟩ := by
      rw [hwritten, List.length_cons] at hfuel
      exact readGroups?_writeGroups hsmall (by simp [Groups.count]; omega) hfuel
    rw [hwritten] at hread
    simp only [hwritten]
    rw [readIpv6?_of_not_colon hc, hread]
    exact if_pos hlength
  | some run =>
    obtain ⟨i, k⟩ := run
    obtain ⟨htwo, hrun⟩ := longestZeros?_eq_some hzeros
    have hcount := congrArg List.length hrun
    simp only [List.length_append, List.length_replicate] at hcount
    simp only
    rw [readIpv6?_gap (fun v hv => hsmall v (List.mem_of_mem_take hv)) (fun v hv => hsmall v (List.mem_of_mem_drop hv))
      (by omega), show 8 - ((groups.take i).length + (groups.drop (i + k)).length) = k by omega, ← hrun]

/-- Of two runs of zeros the longer one is left out. -/
example : writeIpv6 [0x2001, 0xDB8, 0, 0, 1, 0, 0, 0] = "2001:db8:0:0:1::" ∧
    readIpv6? "2001:db8:0:0:1::".toList = some [0x2001, 0xDB8, 0, 0, 1, 0, 0, 0] := by
  decide

/-! ### Groups that were read -/

/-- Groups that fit into an address. -/
structure Groups.Fitting (g : Groups) : Prop where
  count : g.count ≤ 8
  small : ∀ v ∈ g.groups, v < 65536

theorem Groups.Fitting.append {g : Groups} {vs : List Nat} (h : g.Fitting) (hcount : g.count + vs.length ≤ 8)
    (hsmall : ∀ v ∈ vs, v < 65536) : Groups.Fitting { g with groups := g.groups ++ vs } where
  count := by rw [g.count_append]; exact hcount
  small := List.forall_mem_append.2 ⟨h.small, hsmall⟩

theorem hexDigit?_lt {n d : Nat} (h : Percent.hexDigit? n = some d) : d < 16 := by
  unfold Percent.hexDigit? at h
  split at h
  · cases h
    omega
  · split at h
    · cases h
      omega
    · split at h
      · cases h
        omega
      · cases h

/-- Hexadecimal digits count for no more than four bits each. -/
theorem foldl_hex_lt (ds : List Char) (acc : Nat) :
    ds.foldl (fun acc d => acc * 16 + (Percent.hexDigit? d.toNat).getD 0) acc < (acc + 1) * 16 ^ ds.length := by
  induction ds generalizing acc with
  | nil => simp
  | cons d ds ih =>
    have hdigit : (Percent.hexDigit? d.toNat).getD 0 < 16 := by
      cases hd : Percent.hexDigit? d.toNat with
      | none => decide
      | some v => exact hexDigit?_lt hd
    rw [List.foldl_cons, List.length_cons, Nat.pow_succ']
    generalize (Percent.hexDigit? d.toNat).getD 0 = v at hdigit
    calc _ < (acc * 16 + v + 1) * 16 ^ ds.length := ih _
      _ ≤ ((acc + 1) * 16) * 16 ^ ds.length := Nat.mul_le_mul_right _ (by omega)
      _ = (acc + 1) * (16 * 16 ^ ds.length) := Nat.mul_assoc _ _ _

theorem le_of_readOctet? {cs r : List Char} {n : Nat} (h : readOctet? cs = some (n, r)) : n ≤ 255 := by
  unfold readOctet? at h
  simp only at h
  split at h
  · cases h
  · rename_i hbounds
    cases h
    omega

theorem small_of_readDottedGroups? {cs : List Char} {vs : List Nat} (h : readDottedGroups? cs = some vs) :
    vs.length = 2 ∧ ∀ v ∈ vs, v < 65536 := by
  unfold readDottedGroups? at h
  obtain ⟨⟨a, r⟩, ha, h⟩ := Option.bind_eq_some_iff.1 h
  obtain ⟨r, -, h⟩ := Option.bind_eq_some_iff.1 h
  obtain ⟨⟨b, r⟩, hb, h⟩ := Option.bind_eq_some_iff.1 h
  obtain ⟨r, -, h⟩ := Option.bind_eq_some_iff.1 h
  obtain ⟨⟨c, r⟩, hc, h⟩ := Option.bind_eq_some_iff.1 h
  obtain ⟨r, -, h⟩ := Option.bind_eq_some_iff.1 h
  obtain ⟨⟨d, r⟩, hd, h⟩ := Option.bind_eq_some_iff.1 h
  simp only [Option.ite_none_right_eq_some, Option.some.injEq] at h
  obtain ⟨-, rfl⟩ := h
  have ha := le_of_readOctet? ha
  have hb := le_of_readOctet? hb
  have hc := le_of_readOctet? hc
  have hd := le_of_readOctet? hd
  refine ⟨rfl, ?_⟩
  simp only [List.forall_mem_cons]
  exact ⟨by omega, by omega, fun _ hv => absurd hv List.not_mem_nil⟩

/-- A group of up to four digits fits where there is room for it. -/
theorem Groups.Fitting.group {g : Groups} (h : g.Fitting) (hroom : ¬ g.count = 8) (cs : List Char) :
    Groups.Fitting { g with groups := g.groups ++
      [(cs.take 4).foldl (fun acc d => acc * 16 + (Percent.hexDigit? d.toNat).getD 0) 0] } := by
  have hcount := h.count
  refine h.append (by simp only [List.length_singleton]; omega) (List.forall_mem_singleton.2 ?_)
  have hpow : 16 ^ (cs.take 4).length ≤ 16 ^ 4 := Nat.pow_le_pow_right (by decide) (List.length_take_le 4 cs)
  have hvalue := foldl_hex_lt (cs.take 4) 0
  omega

/-- Reading adds to groups only what fits. -/
theorem fitting_of_readGroups? {fuel : Nat} {g g' : Groups} {cs : List Char} (hg : g.Fitting)
    (h : readGroups? fuel g cs = some g') : g'.Fitting := by
  -- what is added is the gap, a group of digits or the two of a dotted address; all other texts are refused
  fun_induction readGroups? fuel g cs with
  | case1 _ g => exact Option.some.inj h ▸ hg
  | case2 | case3 | case4 | case6 | case8 | case10 | case12 => cases h
  | case5 fuel g cs hroom hgap ih =>
    refine ih ⟨?_, hg.small⟩ h
    have hcount := hg.count
    simp only [Groups.count, hgap, Option.isSome_some, if_true] at hcount hroom ⊢
    simp only [Bool.false_eq_true, if_false] at hcount hroom
    omega
  | case7 fuel g c cs hroom => exact Option.some.inj h ▸ hg.group hroom _
  | case9 fuel g c cs _ _ _ _ _ _ hbounds =>
    obtain ⟨two, htwo, rfl⟩ := Option.map_eq_some_iff.1 h
    obtain ⟨hlength, hsmall⟩ := small_of_readDottedGroups? htwo
    exact hg.append (by omega) hsmall
  | case11 fuel g c cs hroom _ _ _ _ _ _ _ _ ih => exact ih (hg.group hroom _) h

theorem Groups.Fitting.fill? {g : Groups} (hg : g.Fitting) {groups : List Nat} (h : g.fill? = some groups) :
    groups.length = 8 ∧ ∀ v ∈ groups, v < 65536 := by
  have hcount := hg.count
  unfold Groups.fill? at h
  unfold Groups.count at hcount
  split at h
  · rename_i k hk
    cases h
    rw [hk, Option.isSome_some, if_pos rfl] at hcount
    refine ⟨?_, ?_⟩
    · simp only [List.length_append, List.length_take, List.length_replicate, List.length_drop]
      omega
    · simp only [List.forall_mem_append]
      have hzeros : ∀ v ∈ List.replicate (8 - g.groups.length) 0, v < 65536 := fun v hv => by
        rw [List.eq_of_mem_replicate hv]
        decide
      exact ⟨⟨fun v hv => hg.small v (List.mem_of_mem_take hv), hzeros⟩,
        fun v hv => hg.small v (List.mem_of_mem_drop hv)⟩
  · split at h
    · rename_i hlength
      cases h
      exact ⟨hlength, hg.small⟩
    · cases h

/-- The groups of an address that was read are eight, of sixteen bits. -/
theorem small_of_readIpv6? {cs : List Char} {groups : List Nat} (h : readIpv6? cs = some groups) :
    groups.length = 8 ∧ ∀ v ∈ groups, v < 65536 := by
  have hopen : ∀ fuel g cs, Groups.Fitting g → (readGroups? fuel g cs).bind Groups.fill? = some groups →
      groups.length = 8 ∧ ∀ v ∈ groups, v < 65536 := by
    intro fuel g cs hg h
    obtain ⟨g', hg', h⟩ := Option.bind_eq_some_iff.1 h
    exact (fitting_of_readGroups? hg hg').fill? h
  unfold readIpv6? at h
  split at h
  · exact hopen _ _ _ ⟨by decide, fun v hv => absurd hv List.not_mem_nil⟩ h
  · cases h
  · exact hopen _ _ _ ⟨by decide, fun v hv => absurd hv List.not_mem_nil⟩ h

end Upnp.Url
