import Mathlib.Algebra.Group.Nat.Defs
import Mathlib.Data.List.Basic
import Upnp.Config.Settings
import Upnp.Proofs.Decimal.Integer

/-
The numbers of the settings. What a configuration has for a setting counts if it stands for a natural number of
64 bits, and else the default does; the number is brought into the range of its use, whatever the configuration
holds. So the windows of ports are made of words of 16 bits, and what is drawn from a window are the ports that it
offers, all of them and no others: a sum that leaves the words is cut off and does not wrap around.
-/

namespace Upnp

open Upnp.Decimal Upnp.Text Upnp.Yaml

namespace Config

/-! ## Values that stand for natural numbers -/

/-- The value stands for a natural number of 64 bits: as a whole number, which a real one never is, or as a decimal
text between blanks. The text may have a plus sign; behind a minus sign not even zeros are a natural number. -/
inductive StandsFor : Value → Nat → Prop
  | number {n : Nat} (hn : n < 2 ^ 64) : StandsFor (.number (.int n)) n
  | text {s : String} {n : Nat} (h : Denotes (trim s).toList n) (hs : (trim s).toList.head? ≠ some '-')
    (hn : n < 2 ^ 64) : StandsFor (.string s) n

theorem contains_unsigned64_iff {m : Int} : IntRange.unsigned64.contains m = true ↔ ∃ n : Nat, m = n ∧ n < 2 ^ 64 := by
  rw [contains_iff]
  constructor
  · rintro ⟨h0, hle⟩
    obtain ⟨n, rfl⟩ := Int.eq_ofNat_of_zero_le h0
    exact ⟨n, rfl, by simp only [IntRange.unsigned64] at hle; omega⟩
  · rintro ⟨n, rfl, hn⟩
    exact ⟨Int.natCast_nonneg n, by simp only [IntRange.unsigned64]; omega⟩

theorem natural?_eq_some_iff {x : Number} {n : Nat} : x.natural? = some n ↔ x = .int n ∧ n < 2 ^ 64 := by
  cases x with
  | int m =>
    rw [Number.natural?, Option.ite_none_right_eq_some, contains_unsigned64_iff, Number.int.injEq]
    constructor
    · rintro ⟨⟨k, rfl, hk⟩, hn⟩
      obtain rfl : k = n := Option.some.inj hn
      exact ⟨rfl, hk⟩
    · rintro ⟨rfl, hn⟩
      exact ⟨⟨n, rfl, hn⟩, rfl⟩
  | real x => simp [Number.natural?]

theorem readInt?_unsigned64_eq_some_iff {t : String} {m : Int} : readInt? .unsigned64 t = some m ↔
    Denotes t.toList m ∧ (∃ n : Nat, m = n ∧ n < 2 ^ 64) ∧ t.toList.head? ≠ some '-' := by
  rw [readInt?_eq_some_iff, readIntChars_eq_ok_iff (by decide), contains_unsigned64_iff]
  simp [IntRange.isSigned, IntRange.unsigned64]

theorem naturalOf?_eq_some_iff {v : Value} {n : Nat} : naturalOf? v = some n ↔ StandsFor v n := by
  constructor
  · intro h
    cases v with
    | number x =>
      obtain ⟨rfl, hn⟩ := natural?_eq_some_iff.1 h
      exact .number hn
    | string s =>
      rw [naturalOf?, Option.map_eq_some_iff] at h
      obtain ⟨m, hm, hn⟩ := h
      obtain ⟨hdenotes, ⟨k, rfl, hk⟩, hsign⟩ := readInt?_unsigned64_eq_some_iff.1 hm
      obtain rfl : k = n := hn
      exact .text hdenotes hsign hk
    | _ => cases h
  · intro h
    cases h with
    | number hn => exact natural?_eq_some_iff.2 ⟨rfl, hn⟩
    | text hdenotes hsign hn =>
      rw [naturalOf?, Option.map_eq_some_iff]
      exact ⟨n, readInt?_unsigned64_eq_some_iff.2 ⟨hdenotes, ⟨n, rfl, hn⟩, hsign⟩, rfl⟩

instance (v : Value) (n : Nat) : Decidable (StandsFor v n) :=
  decidable_of_iff (naturalOf? v = some n) naturalOf?_eq_some_iff

theorem StandsFor.lt {v : Value} {n : Nat} (h : StandsFor v n) : n < 2 ^ 64 := by
  cases h <;> assumption

/-! ## Settings of a configuration -/

section

variable {c : Config} {s : NumberSetting} {n : Nat}

/-- The configuration has a value for the setting that stands for the number. -/
def Sets (c : Config) (s : NumberSetting) (n : Nat) : Prop :=
  ∃ v, c.getValue s.path = .ok v ∧ StandsFor v n

theorem sets_iff : c.Sets s n ↔ (get s.path c.tree).toOption.bind naturalOf? = some n := by
  unfold Sets getValue
  cases get s.path c.tree with
  | ok v => simp [Except.mapError, Except.toOption, naturalOf?_eq_some_iff]
  | error e => simp [Except.mapError, Except.toOption]

theorem number_of_sets (h : c.Sets s n) : c.number s = n := by
  rw [number, sets_iff.1 h, Option.getD_some]

theorem forall_not_sets_iff : (∀ n, ¬ c.Sets s n) ↔ (get s.path c.tree).toOption.bind naturalOf? = none := by
  simp only [sets_iff, Option.eq_none_iff_forall_ne_some]

theorem number_of_not_sets (h : ∀ n, ¬ c.Sets s n) : c.number s = s.standard := by
  rw [number, forall_not_sets_iff.1 h, Option.getD_none]

theorem number_lt (c : Config) (s : NumberSetting) : c.number s < 2 ^ 64 := by
  by_cases h : ∃ n, c.Sets s n
  · obtain ⟨n, hn⟩ := h
    rw [number_of_sets hn]
    obtain ⟨v, -, hv⟩ := hn
    exact hv.lt
  · rw [number_of_not_sets (not_exists.1 h)]
    cases s <;> decide

end

end Config

/-! ## Ranges of the settings -/

namespace NumberSetting

/-- The least number that is of use for the setting. -/
def least : NumberSetting → Nat
  | readTimeoutMs => 1
  | _ => 0

/-- The greatest number that the setting can have. -/
def greatest : NumberSetting → Nat
  | searchMx | multicastTtl => 2 ^ 32 - 1
  | controlPointPortBase | controlPointPortRange | devicePortBase | devicePortRange => 2 ^ 16 - 1
  | readTimeoutMs | httpTimeoutSecs => 2 ^ 64 - 1

/-- The number of the range that is nearest to a number. -/
def intoRange (s : NumberSetting) (n : Nat) : Nat :=
  max s.least (min n s.greatest)

theorem least_le_greatest (s : NumberSetting) : s.least ≤ s.greatest := by
  cases s <;> decide

theorem least_le_intoRange (s : NumberSetting) (n : Nat) : s.least ≤ s.intoRange n :=
  Nat.le_max_left _ _

theorem intoRange_le_greatest (s : NumberSetting) (n : Nat) : s.intoRange n ≤ s.greatest :=
  Nat.max_le.2 ⟨s.least_le_greatest, Nat.min_le_right _ _⟩

/-- Every default is in its range. -/
theorem intoRange_standard (s : NumberSetting) : s.intoRange s.standard = s.standard := by
  cases s <;> decide

end NumberSetting

namespace Settings

/-- The number that the settings have for one by name. -/
def value (t : Settings) : NumberSetting → Nat
  | .searchMx => t.searchMx
  | .multicastTtl => t.multicastTtl
  | .readTimeoutMs => t.readTimeoutMs
  | .controlPointPortBase => t.controlPointPorts.base
  | .controlPointPortRange => t.controlPointPorts.size
  | .devicePortBase => t.devicePorts.base
  | .devicePortRange => t.devicePorts.size
  | .httpTimeoutSecs => t.httpTimeoutSecs

theorem value_ofConfig (c : Config) (s : NumberSetting) : (ofConfig c).value s = s.intoRange (c.number s) := by
  have hlt := c.number_lt s
  cases s <;>
    simp only [value, ofConfig, clamp16, clamp32, NumberSetting.intoRange, NumberSetting.least, NumberSetting.greatest] <;>
    omega

end Settings

/-! ## Windows of ports -/

namespace PortRange

/-- The ports of a window begin with its base and are as many as its size says, though one at least; none is above
the highest port. -/
structure Offers (r : PortRange) (port : Nat) : Prop where
  base_le : r.base ≤ port
  le_highest : port ≤ highestPort
  eq_base : r.size = 0 → port = r.base
  sub_base_lt : r.size ≠ 0 → port - r.base < r.size

section

variable {r : PortRange}

theorem contains_iff_offers {port : Nat} : r.contains port = true ↔ r.Offers port := by
  unfold contains last
  rw [Bool.and_eq_true, decide_eq_true_eq, decide_eq_true_eq]
  constructor
  · rintro ⟨hbase, hlast⟩
    exact ⟨hbase, by omega, by omega, by omega⟩
  · rintro ⟨hbase, hhighest, hempty, hsize⟩
    omega

theorem pick_of_size_eq_zero (h : r.size = 0) (draw : Nat) : r.pick draw = r.base :=
  if_pos h

theorem pick_of_size_ne_zero (h : r.size ≠ 0) (draw : Nat) :
    r.pick draw = min highestPort (r.base + draw % r.size) :=
  if_neg h

theorem offers_pick (h : r.base ≤ highestPort) (draw : Nat) : r.Offers (r.pick draw) := by
  by_cases hsize : r.size = 0
  · rw [pick_of_size_eq_zero hsize]
    exact ⟨Nat.le_refl _, h, fun _ => rfl, fun hs => absurd hsize hs⟩
  · have hdraw : draw % r.size < r.size := Nat.mod_lt _ (Nat.pos_of_ne_zero hsize)
    rw [pick_of_size_ne_zero hsize]
    exact ⟨by omega, by omega, fun hs => absurd hs hsize, fun _ => by omega⟩

/-- A port that the window offers comes of the draw that is its distance from the base. -/
theorem pick_sub_base {port : Nat} (h : r.Offers port) : r.pick (port - r.base) = port := by
  have hbase := h.base_le
  have hhighest := h.le_highest
  by_cases hsize : r.size = 0
  · rw [pick_of_size_eq_zero hsize, h.eq_base hsize]
  · rw [pick_of_size_ne_zero hsize, Nat.mod_eq_of_lt (h.sub_base_lt hsize)]
    omega

/-- The draws give the ports of the window, all of them and no others. -/
theorem exists_pick_iff (h : r.base ≤ highestPort) {port : Nat} :
    (∃ draw, r.pick draw = port) ↔ r.contains port = true := by
  rw [contains_iff_offers]
  constructor
  · rintro ⟨draw, rfl⟩
    exact offers_pick h draw
  · intro hport
    exact ⟨port - r.base, pick_sub_base hport⟩

end

/-! ### Words of 16 bits -/

/-- The sum of words; the highest one where the sum wraps around. -/
def saturatingSum (a b : UInt16) : UInt16 :=
  if a + b < a then 65535 else a + b

theorem toNat_saturatingSum (a b : UInt16) : (saturatingSum a b).toNat = min highestPort (a.toNat + b.toNat) := by
  have ha := a.toNat_lt
  have hb := b.toNat_lt
  simp only [saturatingSum, highestPort, UInt16.lt_iff_toNat_lt, UInt16.toNat_add]
  split
  · show 65535 = _
    omega
  · rw [UInt16.toNat_add]
    omega

/-- In words, a draw below the size is added to the base. -/
theorem pick_words {base size draw : UInt16} (h : draw < size) :
    pick ⟨base.toNat, size.toNat⟩ draw.toNat = (saturatingSum base draw).toNat := by
  have hlt : draw.toNat < size.toNat := UInt16.lt_iff_toNat_lt.1 h
  have hsize : size.toNat ≠ 0 := Nat.ne_zero_of_lt hlt
  rw [pick_of_size_ne_zero hsize, Nat.mod_eq_of_lt hlt, toNat_saturatingSum]

end PortRange

/-! ## Settings of any configuration -/

namespace Settings

/-- The windows of which ports are drawn. -/
def windows (t : Settings) : List PortRange :=
  [t.controlPointPorts, t.devicePorts]

theorem toNat_clamp16 (n : Nat) : (UInt16.ofNat (clamp16 n)).toNat = clamp16 n :=
  UInt16.toNat_ofNat_of_lt' (Nat.lt_succ_of_le (Nat.min_le_right n 65535))

theorem exists_words_clamp16 (base size : Nat) :
    ∃ b s : UInt16, PortRange.mk (clamp16 base) (clamp16 size) = ⟨b.toNat, s.toNat⟩ :=
  ⟨.ofNat (clamp16 base), .ofNat (clamp16 size), by rw [toNat_clamp16, toNat_clamp16]⟩

/-- The windows are made of words. -/
theorem exists_words {c : Config} {w : PortRange} (hw : w ∈ (ofConfig c).windows) :
    ∃ base size : UInt16, w = ⟨base.toNat, size.toNat⟩ := by
  rw [windows, List.mem_pair] at hw
  rcases hw with rfl | rfl
  · exact exists_words_clamp16 _ _
  · exact exists_words_clamp16 _ _

/-- Whatever a configuration holds, every number of the settings is in its range: it is the one that the
configuration sets, as near as the range allows, or the default if the configuration sets none. A draw from a window
gives a port that the window offers, and each of these comes of some draw; in words of 16 bits it is the sum of the
base and the draw, which does not wrap around. -/
theorem ofConfig_inRange (c : Config) :
    (∀ s : NumberSetting,
      (∀ n, c.Sets s n → (ofConfig c).value s = s.intoRange n) ∧
      ((∀ n, ¬ c.Sets s n) → (ofConfig c).value s = s.standard) ∧
      s.least ≤ (ofConfig c).value s ∧ (ofConfig c).value s ≤ s.greatest) ∧
    ∀ w ∈ (ofConfig c).windows,
      (∀ draw, w.Offers (w.pick draw)) ∧ (∀ port, (∃ draw, w.pick draw = port) ↔ w.contains port = true) ∧
      ∃ base size : UInt16, w = ⟨base.toNat, size.toNat⟩ ∧
        ∀ draw, draw < size → w.pick draw.toNat = (PortRange.saturatingSum base draw).toNat := by
  refine ⟨fun s => ?_, fun w hw => ?_⟩
  · rw [value_ofConfig]
    refine ⟨fun n hn => ?_, fun hnone => ?_, s.least_le_intoRange _, s.intoRange_le_greatest _⟩
    · rw [Config.number_of_sets hn]
    · rw [Config.number_of_not_sets hnone, s.intoRange_standard]
  · obtain ⟨base, size, rfl⟩ := exists_words hw
    have hbase : base.toNat ≤ PortRange.highestPort := Nat.le_of_lt_succ base.toNat_lt
    exact ⟨PortRange.offers_pick hbase, fun port => PortRange.exists_pick_iff hbase, base, size, rfl,
      fun draw => PortRange.pick_words⟩

/-- A configuration of which little can be used as it is. -/
def crowded : Config where
  tree := .mapping [
    (.string "ssdp", .mapping [(.string "search_mx", .string "\t+007 "),
      (.string "multicast_ttl", .number (.int 4294967296)), (.string "read_timeout_ms", .number (.int 0))]),
    (.string "control_point", .mapping [(.string "port_base", .number (.int 65000)),
      (.string "port_range", .string "18446744073709551615")]),
    (.string "device", .mapping [(.string "port_base", .string "-0"), (.string "port_range", .string "0")]),
    (.string "http", .mapping [(.string "timeout_secs", .string "18446744073709551616")])]

/-- Its numbers are cut to their ranges, and what is no natural number of 64 bits leaves the default. Its first
window reaches beyond the highest port, and its second one has a single port. -/
theorem ofConfig_inRange_crowded :
    (crowded.Sets .searchMx 7 ∧ (ofConfig crowded).value .searchMx = 7) ∧
    (crowded.Sets .multicastTtl 4294967296 ∧ (ofConfig crowded).value .multicastTtl = 4294967295) ∧
    (crowded.Sets .readTimeoutMs 0 ∧ (ofConfig crowded).value .readTimeoutMs = 1) ∧
    ((∀ n, ¬ crowded.Sets .httpTimeoutSecs n) ∧ (ofConfig crowded).value .httpTimeoutSecs = 10) ∧
    (∀ n, ¬ crowded.Sets .devicePortBase n) ∧
    (ofConfig crowded).windows = [⟨65000, 65535⟩, ⟨6004, 0⟩] ∧
    (PortRange.Offers ⟨65000, 65535⟩ (PortRange.pick ⟨65000, 65535⟩ 60000) ∧
      PortRange.pick ⟨65000, 65535⟩ 60000 = 65535) ∧
    ∀ draw, PortRange.pick ⟨6004, 0⟩ draw = 6004 := by
  obtain ⟨hvalue, hdrawn⟩ := ofConfig_inRange crowded
  have hmx : crowded.Sets .searchMx 7 := Config.sets_iff.2 (by decide +kernel)
  have httl : crowded.Sets .multicastTtl 4294967296 := Config.sets_iff.2 (by decide +kernel)
  have htimeout : crowded.Sets .readTimeoutMs 0 := Config.sets_iff.2 (by decide +kernel)
  have hhttp : ∀ n, ¬ crowded.Sets .httpTimeoutSecs n := Config.forall_not_sets_iff.2 (by decide +kernel)
  have hdevice : ∀ n, ¬ crowded.Sets .devicePortBase n := Config.forall_not_sets_iff.2 (by decide +kernel)
  have hfirst : (ofConfig crowded).controlPointPorts = ⟨65000, 65535⟩ := by
    have hbase := (hvalue .controlPointPortBase).1 65000 (Config.sets_iff.2 (by decide +kernel))
    have hsize := (hvalue .controlPointPortRange).1 18446744073709551615 (Config.sets_iff.2 (by decide +kernel))
    exact congrArg₂ PortRange.mk hbase hsize
  have hsecond : (ofConfig crowded).devicePorts = ⟨6004, 0⟩ := by
    have hsize := (hvalue .devicePortRange).1 0 (Config.sets_iff.2 (by decide +kernel))
    exact congrArg₂ PortRange.mk ((hvalue .devicePortBase).2.1 hdevice) hsize
  have hwindows : (ofConfig crowded).windows = [⟨65000, 65535⟩, ⟨6004, 0⟩] := by
    rw [windows, hfirst, hsecond]
  rw [hwindows] at hdrawn
  refine ⟨⟨hmx, (hvalue .searchMx).1 7 hmx⟩, ⟨httl, (hvalue .multicastTtl).1 _ httl⟩,
    ⟨htimeout, (hvalue .readTimeoutMs).1 0 htimeout⟩, ⟨hhttp, (hvalue .httpTimeoutSecs).2.1 hhttp⟩, hdevice, hwindows,
    ⟨(hdrawn _ (.head _)).1 60000, by decide⟩, fun draw => ?_⟩
  exact ((hdrawn _ (.tail _ (.head _))).1 draw).eq_base rfl

end Settings

end Upnp
