import Mathlib.Tactic.Common
import Upnp.Ssdp.Reception

/-
What a receiving loop delivers. A turn of the loop ends it, delivers one packet or passes: it ends when
it sees that the socket is to be closed, and whatever else it comes upon, the turns after it are what
they were. So the packets that are delivered are those of the datagrams up to the turn that sees the
closing, each once and in order.
-/

namespace Upnp.Ssdp

/-! ## One turn -/

/-- The turn sees that the socket is to be closed. Having waited in vain, it leaves looking again to the
turn after it. -/
def Turn.seesClosed (t : Turn) : Bool :=
  t.closedBefore || (t.closedAfter && t.reception != .idle)

/-- The packet that is delivered, if the loop goes on. -/
def Reception.packet? (interface : Net.Interface) : Reception → Option Packet
  | .datagram octets sender => receivedPacket? interface octets sender
  | .idle => none
  | .failure => none

section

variable (interface : Net.Interface)

theorem deliveries_cons (t : Turn) (turns : List Turn) : deliveries interface (t :: turns) =
    if t.seesClosed then [] else (t.reception.packet? interface).toList ++ deliveries interface turns := by
  obtain ⟨reception, closedBefore, closedAfter⟩ := t
  cases closedBefore with
  | true => rfl
  | false =>
    cases reception with
    | idle => cases closedAfter <;> rfl
    | failure => cases closedAfter <;> rfl
    | datagram octets sender => cases closedAfter <;> rfl

theorem deliveries_eq (turns : List Turn) : deliveries interface turns =
    ((turns.takeWhile (!·.seesClosed)).map Turn.reception).filterMap (Reception.packet? interface) := by
  induction turns with
  | nil => rfl
  | cons t turns ih =>
    rw [deliveries_cons, List.takeWhile_cons]
    cases t.seesClosed with
    | true => rfl
    | false =>
      rw [if_neg Bool.false_ne_true, ih, if_pos Bool.not_false, List.map_cons, List.filterMap_cons]
      cases t.reception.packet? interface <;> rfl

/-- A turn counts if it ends the loop or delivers a packet. -/
def Turn.counts (t : Turn) : Bool :=
  t.seesClosed || (t.reception.packet? interface).isSome

theorem deliveries_filter_counts (turns : List Turn) :
    deliveries interface (turns.filter (·.counts interface)) = deliveries interface turns := by
  induction turns with
  | nil => rfl
  | cons t turns ih =>
    rw [List.filter_cons]
    split
    · rw [deliveries_cons, deliveries_cons, ih]
    · rename_i hcounts
      simp only [Turn.counts, Bool.or_eq_true, not_or, Bool.not_eq_true, Option.isSome_eq_false_iff,
        Option.isNone_iff_eq_none] at hcounts
      rw [deliveries_cons, hcounts.1, hcounts.2, ih]
      rfl

end

/-! ## What is heard -/

/-- The packets that are heard of what a socket received: one for every datagram whose first octets make
one, with its sender and the interface of the socket. -/
inductive Heard (interface : Net.Interface) : List Reception → List Packet → Prop
  | nothing : Heard interface [] []
  | packet {octets : Text.Utf8.Octets} {sender : Net.Endpoint} {p : Packet} {results : List Reception}
    {packets : List Packet} (hp : Packet.parse (octets.take 8192) = .ok p) (h : Heard interface results packets) :
    Heard interface (.datagram octets sender :: results)
      ({ p with sender := some sender, interface := some interface } :: packets)
  | malformed {octets : Text.Utf8.Octets} {sender : Net.Endpoint} {e : PacketError} {results : List Reception}
    {packets : List Packet} (he : Packet.parse (octets.take 8192) = .error e) (h : Heard interface results packets) :
    Heard interface (.datagram octets sender :: results) packets
  | idle {results : List Reception} {packets : List Packet} (h : Heard interface results packets) :
    Heard interface (.idle :: results) packets
  | failure {results : List Reception} {packets : List Packet} (h : Heard interface results packets) :
    Heard interface (.failure :: results) packets

section

variable {interface : Net.Interface} {results : List Reception} {packets : List Packet}

theorem Heard.eq_filterMap (h : Heard interface results packets) :
    packets = results.filterMap (Reception.packet? interface) := by
  induction h with
  | nothing => rfl
  | packet hp _ ih => simp only [List.filterMap_cons, Reception.packet?, receivedPacket?, maxPacketSize, hp, ih]; rfl
  | malformed he _ ih => simp only [List.filterMap_cons, Reception.packet?, receivedPacket?, maxPacketSize, he, ih]; rfl
  | idle _ ih => exact ih
  | failure _ ih => exact ih

theorem heard_filterMap (interface : Net.Interface) (results : List Reception) :
    Heard interface results (results.filterMap (Reception.packet? interface)) := by
  induction results with
  | nil => exact .nothing
  | cons r results ih =>
    cases r with
    | idle => exact .idle ih
    | failure => exact .failure ih
    | datagram octets sender =>
      rw [List.filterMap_cons, Reception.packet?, receivedPacket?]
      cases hp : Packet.parse (octets.take maxPacketSize) with
      | error e => exact .malformed hp ih
      | ok p => exact .packet hp ih

theorem heard_iff : Heard interface results packets ↔ packets = results.filterMap (Reception.packet? interface) :=
  ⟨Heard.eq_filterMap, fun h => h ▸ heard_filterMap interface results⟩

end

/-! ## Closing -/

/-- The turns of a loop whose socket is to be closed from a moment on. Each turn takes two moments, one
for looking before it waits and one for looking after that. -/
def turnsUntil (moment : Nat) (results : List Reception) : List Turn :=
  results.mapIdx fun k r => ⟨r, moment ≤ 2 * k, moment ≤ 2 * k + 1⟩

theorem turnsUntil_cons (moment : Nat) (r : Reception) (results : List Reception) :
    turnsUntil moment (r :: results) = ⟨r, moment ≤ 0, moment ≤ 1⟩ :: turnsUntil (moment - 2) results := by
  have hbefore : ∀ k, moment ≤ 2 * (k + 1) ↔ moment - 2 ≤ 2 * k := fun k => by omega
  have hafter : ∀ k, moment ≤ 2 * (k + 1) + 1 ↔ moment - 2 ≤ 2 * k + 1 := fun k => by omega
  simp only [turnsUntil, List.mapIdx_cons, hbefore, hafter, Nat.mul_zero, Nat.zero_add]

theorem deliveries_turnsUntil_zero (interface : Net.Interface) (results : List Reception) :
    deliveries interface (turnsUntil 0 results) = [] := by
  cases results with
  | nil => rfl
  | cons r results => rw [turnsUntil_cons]; rfl

theorem deliveries_turnsUntil (interface : Net.Interface) (moment : Nat) (results : List Reception) :
    deliveries interface (turnsUntil moment results) =
      (results.take (moment / 2)).filterMap (Reception.packet? interface) := by
  induction results generalizing moment with
  | nil => rw [List.take_nil]; rfl
  | cons r results ih =>
    match moment with
    | 0 => exact deliveries_turnsUntil_zero interface _
    | 1 =>
      -- a turn that waited in vain misses the closing, but the turn after it does not
      rw [turnsUntil_cons, deliveries_cons, deliveries_turnsUntil_zero]
      cases r <;> rfl
    | moment + 2 =>
      rw [turnsUntil_cons, deliveries_cons, if_neg (by simp [Turn.seesClosed]), Nat.add_sub_cancel, ih,
        Nat.add_div_right _ Nat.two_pos, List.take_succ_cons, List.filterMap_cons]
      cases r.packet? interface <;> rfl

/-- Receiving delivers just the packets that are heard up to the turn that sees the closing; leaving out
the turns that neither end the loop nor bring a packet changes nothing about that. Where a socket is to be
closed from some moment on, just that is delivered which was dealt with before. -/
theorem deliveries_heard (interface : Net.Interface) :
    (∀ turns : List Turn,
      (∀ packets, Heard interface ((turns.takeWhile (!·.seesClosed)).map Turn.reception) packets ↔
        packets = deliveries interface turns) ∧
      deliveries interface (turns.filter (·.counts interface)) = deliveries interface turns) ∧
    ∀ (moment : Nat) (results : List Reception) (packets : List Packet),
      Heard interface (results.take (moment / 2)) packets ↔
        packets = deliveries interface (turnsUntil moment results) := by
  refine ⟨fun turns => ⟨fun packets => ?_, deliveries_filter_counts interface turns⟩,
    fun moment results packets => ?_⟩
  · rw [deliveries_eq, heard_iff]
  · rw [deliveries_turnsUntil, heard_iff]

end Upnp.Ssdp
