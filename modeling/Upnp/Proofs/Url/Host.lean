import Mathlib.Data.List.TakeWhile
import Upnp.Proofs.Text.Utf8
import Upnp.Proofs.Url.Address

/-
Hosts of the web are read as they are written, by any rule for domains that keeps what it gives: the text of a
host that was read is read as the same host, and that of its port as the same port. In the text of an authority
the host is found again, whether a port stands behind it or not.
-/

namespace Upnp.Url

open Upnp.Text

/-! ## Percent encoding -/

namespace Percent

theorem decodeOctets_of_not_mem {bs : Utf8.Octets} (h : 37 ∉ bs) : decodeOctets bs = bs := by
  fun_induction decodeOctets bs with
  | case1 | case2 => exact absurd List.mem_cons_self h
  | case3 b bs _ ih => rw [ih fun hm => h (List.mem_cons_of_mem b hm)]
  | case4 => rfl

/-- An ASCII text without percent signs stands for itself. -/
theorem decode?_of_ascii {cs : List Char} (h : ∀ c ∈ cs, c.toNat < 128 ∧ c ≠ '%') : decode? cs = some cs := by
  have hnone : 37 ∉ Utf8.encodeChars cs := by
    intro hm
    obtain ⟨c, hc, hb⟩ := List.mem_flatMap.1 hm
    obtain ⟨hascii, hpercent⟩ := h c hc
    have honly : Utf8.encodeChar c = [UInt8.ofNat c.toNat] := by
      unfold Utf8.encodeChar
      exact if_pos hascii
    rw [honly] at hb
    have hcode := congrArg UInt8.toNat (List.mem_singleton.1 hb)
    rw [Utf8.toNat_ofNat_octet (by omega)] at hcode
    exact hpercent (Char.toNat_inj.1 hcode.symm)
  unfold decode?
  rw [decodeOctets_of_not_mem hnone, Utf8.decodeChars_encodeChars]
  rfl

end Percent

/-! ## Characters of hosts -/

theorem isHostChar_of_allowed {c : Char} (h : isForbiddenInDomain c = false) :
    IsHostChar c ∧ c ≠ '%' ∧ c ≠ ':' ∧ c ≠ '[' := by
  simp only [isForbiddenInDomain, Bool.or_eq_false_iff, decide_eq_false_iff_not, List.contains_eq_mem, List.mem_cons,
    List.not_mem_nil, or_false, not_or] at h
  obtain ⟨⟨hlow, -⟩, hpercent, hsharp, hslash, hcolon, -, -, hquestion, hat, hopen, hback, -⟩ := h
  exact ⟨⟨by omega, by simp [endsAuthority, isSlash, endsPath, hslash, hback, hquestion, hsharp], hat⟩, hpercent,
    hcolon, hopen⟩

theorem isHostChar_hex : ∀ d < 16, IsHostChar (Nat.digitChar d) ∧ Nat.digitChar d ≠ ']' := by
  have hall : ∀ d < 16, 0x20 < (Nat.digitChar d).toNat ∧ endsAuthority true (Nat.digitChar d) = false ∧
      Nat.digitChar d ≠ '@' ∧ Nat.digitChar d ≠ ']' := by decide
  exact fun d hd => ⟨⟨(hall d hd).1, (hall d hd).2.1, (hall d hd).2.2.1⟩, (hall d hd).2.2.2⟩

theorem isHostChar_of_mem : ∀ c ∈ ['[', ':', ']'], IsHostChar c := by
  simp only [List.forall_mem_cons]
  exact ⟨⟨by decide, by decide, by decide⟩, ⟨by decide, by decide, by decide⟩, ⟨by decide, by decide, by decide⟩,
    fun _ hc => absurd hc List.not_mem_nil⟩

theorem isHostChar_writeIpv6 {groups : List Nat} {c : Char} (h : c ∈ (writeIpv6 groups).toList) :
    IsHostChar c ∧ c ≠ ']' := by
  rcases mem_writeIpv6 h with rfl | ⟨d, hd, rfl⟩
  · exact ⟨isHostChar_of_mem _ (by simp), by decide⟩
  · exact isHostChar_hex d hd

/-! ## Texts of hosts -/

/-- A character of domains in ASCII form. -/
structure IsDomainChar (c : Char) : Prop where
  ascii : c.toNat < 128
  allowed : isForbiddenInDomain c = false

/-- What a rule for domains has to be: it gives ASCII texts of characters that domains may hold, takes what it
gives as it is, and takes addresses of numbers as they are. -/
structure DomainRule.Keeps (toAscii : DomainRule) : Prop where
  chars : ∀ cs domain, toAscii cs = some domain → ∀ c ∈ domain, IsDomainChar c
  final : ∀ cs domain, toAscii cs = some domain → toAscii domain = some domain
  address : ∀ n : Nat, toAscii (writeIpv4 n).toList = some (writeIpv4 n).toList

/-- The rule without tables is one of them. -/
theorem asciiDomain?_keeps : DomainRule.Keeps asciiDomain? where
  chars := by
    intro cs domain h
    obtain ⟨labels, -, rfl, hlabels, hallowed⟩ := asciiDomain?_eq_some h
    have hascii : ∀ c ∈ ['.'].intercalate labels, c.toNat < 128 :=
      forall_mem_intercalate (List.forall_mem_singleton.2 (by decide)) fun l hl c hc => ((hlabels l hl).2 c hc).ascii
    exact fun c hc => ⟨hascii c hc, hallowed c hc⟩
  final := fun _ _ => asciiDomain?_asciiDomain?
  address := asciiDomain?_writeIpv4

/-- Texts of hosts: domains in ASCII form, addresses among them, and addresses in brackets. -/
inductive IsHostText : List Char → Prop
  | domain {cs : List Char} : cs ≠ [] → (∀ c ∈ cs, IsDomainChar c) → IsHostText cs
  | brackets (groups : List Nat) : IsHostText ('[' :: ((writeIpv6 groups).toList ++ [']']))

namespace IsHostText

variable {cs : List Char}

theorem ne_nil (h : IsHostText cs) : cs ≠ [] := by
  cases h with
  | domain hne => exact hne
  | brackets groups => exact List.cons_ne_nil _ _

theorem isHostChar (h : IsHostText cs) : ∀ c ∈ cs, IsHostChar c := by
  cases h with
  | domain _ hchars => exact fun c hc => (isHostChar_of_allowed (hchars c hc).allowed).1
  | brackets groups =>
    rw [List.forall_mem_cons, List.forall_mem_append]
    exact ⟨isHostChar_of_mem _ (by simp), fun c hc => (isHostChar_writeIpv6 hc).1,
      List.forall_mem_singleton.2 (isHostChar_of_mem _ (by simp))⟩

/-- The host of an authority ends where its port begins. -/
theorem spanHost_append (h : IsHostText cs) {rest : List Char} (hr : ∀ c, rest.head? = some c → c = ':') :
    spanHost false (cs ++ rest) = (cs, rest) := by
  have hrest : spanHost false rest = ([], rest) := by
    cases rest with
    | nil => rfl
    | cons c rest =>
      obtain rfl := hr c rfl
      rw [spanHost, if_pos (by simp)]
  cases h with
  | domain hne hchars =>
    have hplain : ∀ c ∈ cs, c ≠ ':' ∧ c ≠ '[' := fun c hc => (isHostChar_of_allowed (hchars c hc).allowed).2.2
    clear hne hchars
    induction cs with
    | nil => exact hrest
    | cons c cs ih =>
      obtain ⟨⟨hcolon, hopen⟩, hplain⟩ := List.forall_mem_cons.1 hplain
      rw [List.cons_append, spanHost, if_neg (by simp [hcolon])]
      simp only [hopen, decide_false, Bool.and_false, Bool.or_false, ih hplain]
  | brackets groups =>
    -- colons do not count up to the closing bracket
    have hinner : ∀ w : List Char, (∀ c ∈ w, c ≠ ']') →
        spanHost true (w ++ ']' :: rest) = (w ++ [']'], rest) := by
      intro w hw
      induction w with
      | nil =>
        rw [List.nil_append, spanHost, if_neg (by simp)]
        simp [hrest]
      | cons c w ih =>
        obtain ⟨hc, hw⟩ := List.forall_mem_cons.1 hw
        rw [List.cons_append, spanHost, if_neg (by simp)]
        simp [hc, ih hw]
    have hwritten := hinner (writeIpv6 groups).toList fun c hc => (isHostChar_writeIpv6 hc).2
    rw [List.cons_append, List.append_assoc, List.singleton_append, spanHost, if_neg (by simp)]
    simp [hwritten]

end IsHostText

theorem isHostText_writeIpv4 (n : Nat) : IsHostText (writeIpv4 n).toList := by
  refine .domain (fun hnil => ?_) (asciiDomain?_keeps.chars _ _ (asciiDomain?_writeIpv4 n))
  have hends := endsInNumber_writeIpv4 n
  rw [hnil] at hends
  exact absurd hends (by decide)

/-! ## Reading texts of hosts -/

section

variable {toAscii : DomainRule}

theorem readWebHost?_of_final (hk : toAscii.Keeps) {cs : List Char} (hself : toAscii cs = some cs) (hne : cs ≠ []) :
    readWebHost? cs toAscii =
      if endsInNumber cs then (readIpv4? cs).map .ipv4 else some (.domain (String.ofList cs)) := by
  have hchars := hk.chars cs cs hself
  have hopen : cs.head? ≠ some '[' := fun hh =>
    (isHostChar_of_allowed (hchars '[' (List.mem_of_head? hh)).allowed).2.2.2 rfl
  have hdecoded : Percent.decode? cs = some cs :=
    Percent.decode?_of_ascii fun c hc => ⟨(hchars c hc).ascii, (isHostChar_of_allowed (hchars c hc).allowed).2.1⟩
  unfold readWebHost?
  rw [if_neg hopen, hdecoded]
  show (toAscii cs).bind _ = _
  rw [hself, Option.bind_some, if_neg (by simpa using hne)]

theorem toList_text_ipv6 (groups : List Nat) :
    (Host.ipv6 groups).text.toList = '[' :: ((writeIpv6 groups).toList ++ [']']) := by
  show ("[" ++ writeIpv6 groups ++ "]").toList = _
  rw [String.toList_append, String.toList_append]
  rfl

theorem readWebHost?_brackets {groups : List Nat} (hlength : groups.length = 8) (hsmall : ∀ v ∈ groups, v < 65536) :
    readWebHost? (Host.ipv6 groups).text.toList toAscii = some (.ipv6 groups) := by
  have hlast : ('[' :: ((writeIpv6 groups).toList ++ [']'])).getLast? = some ']' := by
    rw [← List.cons_append, List.getLast?_concat]
  have hinner : (('[' :: ((writeIpv6 groups).toList ++ [']'])).drop 1).dropLast = (writeIpv6 groups).toList :=
    List.dropLast_concat
  unfold readWebHost? readBracketed?
  rw [toList_text_ipv6, if_pos List.head?_cons, if_pos hlast, hinner, readIpv6?_writeIpv6 hlength hsmall]
  rfl

/-- The text of a host of the web is read as the host. -/
theorem readWebHost?_text (hk : toAscii.Keeps) {cs : List Char} {h : Host} (hread : readWebHost? cs toAscii = some h) :
    IsHostText h.text.toList ∧ readWebHost? h.text.toList toAscii = some h := by
  unfold readWebHost? at hread
  split at hread
  · unfold readBracketed? at hread
    split at hread
    · obtain ⟨groups, hgroups, rfl⟩ := Option.map_eq_some_iff.1 hread
      obtain ⟨hlength, hsmall⟩ := small_of_readIpv6? hgroups
      exact ⟨toList_text_ipv6 groups ▸ .brackets groups, readWebHost?_brackets hlength hsmall⟩
    · cases hread
  · obtain ⟨decoded, -, hread⟩ := Option.bind_eq_some_iff.1 hread
    obtain ⟨domain, hdomain, hread⟩ := Option.bind_eq_some_iff.1 hread
    split at hread
    · cases hread
    · rename_i hnonempty
      split at hread
      · obtain ⟨n, hn, rfl⟩ := Option.map_eq_some_iff.1 hread
        have htext := isHostText_writeIpv4 n
        refine ⟨htext, (readWebHost?_of_final hk (hk.address n) htext.ne_nil).trans ?_⟩
        rw [if_pos (endsInNumber_writeIpv4 n), readIpv4?_writeIpv4 (lt_of_readIpv4? hn)]
        rfl
      · rename_i hnumber
        cases hread
        -- a name in ASCII form that does not end in a number is one for the second reading too
        have hself := hk.final _ _ hdomain
        have hne : domain ≠ [] := by simpa using hnonempty
        have htext : (Host.domain (String.ofList domain)).text.toList = domain := String.toList_ofList
        rw [htext]
        exact ⟨.domain hne (hk.chars _ _ hdomain), (readWebHost?_of_final hk hself hne).trans (if_neg hnumber)⟩

end

/-! ## Ports -/

/-- The text of a port: a colon and digits, or nothing. -/
inductive IsPortText : List Char → Prop
  | none : IsPortText []
  | digits {ds : List Char} : (∀ d ∈ ds, d.isDigit = true) → IsPortText (':' :: ds)

theorem isHostChar_of_isDigit {c : Char} (h : c.isDigit = true) : IsHostChar c := by
  have hbounds : 48 ≤ c.toNat ∧ c.toNat ≤ 57 := by
    simp only [Char.isDigit, Bool.and_eq_true, decide_eq_true_eq] at h
    exact h
  have hmark : ∀ d ∈ ['/', '\\', '?', '#', '@'], c ≠ d := by
    rintro d hd rfl
    simp only [List.mem_cons, List.not_mem_nil, or_false] at hd
    rcases hd with rfl | rfl | rfl | rfl | rfl <;> exact absurd h (by decide)
  simp only [List.forall_mem_cons] at hmark
  obtain ⟨hslash, hback, hquestion, hsharp, hat, -⟩ := hmark
  exact ⟨by omega, by simp [endsAuthority, isSlash, endsPath, hslash, hback, hquestion, hsharp], hat⟩

theorem spanUntil_digits {ds : List Char} (h : ∀ d ∈ ds, d.isDigit = true) :
    spanUntil (!Char.isDigit ·) ds = (ds, []) := by
  have hall : ∀ c ∈ ds, (!!c.isDigit) = true := fun c hc => by simp [h c hc]
  unfold spanUntil
  rw [List.takeWhile_eq_self_iff.2 hall, List.dropWhile_eq_nil_iff.2 hall]

namespace IsPortText

variable {cs : List Char}

theorem isHostChar (h : IsPortText cs) : ∀ c ∈ cs, IsHostChar c := by
  cases h with
  | none => exact fun c hc => absurd hc List.not_mem_nil
  | digits hds =>
    exact List.forall_mem_cons.2 ⟨isHostChar_of_mem _ (by simp), fun c hc => isHostChar_of_isDigit (hds c hc)⟩

theorem head (h : IsPortText cs) : ∀ c, cs.head? = some c → c = ':' := by
  cases h with
  | none => exact fun c hc => by cases hc
  | digits _ => exact fun c hc => (Option.some.inj hc).symm

/-- Nothing of a port belongs to the path behind it. -/
theorem left (h : IsPortText cs) {scheme : String} {p : Option Nat × List Char}
    (hread : readPortPart? scheme cs = some p) : p.2 = [] := by
  cases h with
  | none => exact Option.some.inj hread ▸ rfl
  | @digits ds hds =>
    unfold readPortPart? readPort? at hread
    simp only [spanUntil_digits hds, Option.ite_none_left_eq_some] at hread
    exact Option.some.inj hread.2 ▸ rfl

end IsPortText

/-- Ports that a URL of a scheme holds: of sixteen bits, and not the scheme's own. -/
def IsPortOf (scheme : String) (port : Option Nat) : Prop :=
  ∀ n ∈ port, n ≤ 65535 ∧ defaultPort? scheme ≠ some n

theorem isPortOf_of_readPortPart? {scheme : String} {cs : List Char} {p : Option Nat × List Char}
    (h : readPortPart? scheme cs = some p) : IsPortOf scheme p.1 := by
  unfold readPortPart? at h
  split at h
  · unfold readPort? at h
    simp only at h
    split at h
    · cases h
    · rename_i hle
      have hport : ∀ {digits : List Char} {n : Nat}, n ≤ 65535 →
          IsPortOf scheme (if digits.isEmpty = true ∨ defaultPort? scheme = some n then none else some n) := by
        intro digits n hn m hm
        split at hm
        · cases hm
        · rename_i hown
          cases hm
          exact ⟨hn, fun h => hown (.inr h)⟩
      split at h
      · exact Option.some.inj h ▸ hport (Nat.le_of_not_lt hle)
      · exact Option.some.inj h ▸ hport (Nat.le_of_not_lt hle)
      · cases h
  · exact Option.some.inj h ▸ fun n hn => by cases hn

theorem isPortText_portText (port : Option Nat) : IsPortText (portText port).toList := by
  cases port with
  | none => exact .none
  | some n =>
    show IsPortText (":" ++ toString n).toList
    rw [String.toList_append, toList_toString]
    exact .digits fun d hd => Nat.isDigit_of_mem_toDigits (by decide) (by decide) hd

theorem digitChar_value : ∀ d < 10, (Nat.digitChar d).toNat - 48 = d := by
  decide

/-- The text of a port is read as the port. -/
theorem readPortPart?_portText {scheme : String} {port : Option Nat} (h : IsPortOf scheme port) :
    readPortPart? scheme (portText port).toList = some (port, []) := by
  cases port with
  | none => rfl
  | some n =>
    obtain ⟨hle, hown⟩ := h n rfl
    have hvalue : (Nat.toDigits 10 n).foldl (fun acc c => acc * 10 + (c.toNat - 48)) 0 = n := by
      refine foldl_toDigits id (by decide) (fun m d hd => ?_) n
      rw [digitChar_value d hd]
      rfl
    have hne : Nat.toDigits 10 n ≠ [] := Nat.toDigits_ne_nil
    have hdigits := spanUntil_digits fun d (hd : d ∈ Nat.toDigits 10 n) =>
      Nat.isDigit_of_mem_toDigits (by decide) (by decide) hd
    show readPortPart? scheme (":" ++ toString n).toList = _
    rw [String.toList_append, toList_toString]
    show readPort? scheme (Nat.toDigits 10 n) = _
    unfold readPort?
    simp only [hdigits, hvalue, List.isEmpty_iff, hne, hown, or_self, if_false]
    exact if_neg (by omega)

end Upnp.Url
