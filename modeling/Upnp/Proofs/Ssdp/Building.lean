import Mathlib.Data.List.Infix
import Upnp.Ssdp.Message
import Upnp.Proofs.Ssdp.Wire

/-
Packets that are put together change by change. However a packet was built, its header names are in
upper case and each is there once, so that nothing but its texts decides whether it survives the
wire: what `FitForWire` asks of them is exactly what it takes to be read back.
-/

namespace Upnp.Ssdp

open Upnp.Text

namespace Packet

/-! ## Packets that were built -/

/-- A change of a packet. -/
inductive Change where
  | firstLine (tokens : List String)
  | method (m : String)
  | status (code : Nat)
  | header (name value : String)
  /-- A header that SSDP gives a meaning. -/
  | known (name : HeaderName) (value : String)
  | number (name : HeaderName) (n : Int)

def apply (p : Packet) : Change → Packet
  | .firstLine tokens => p.setFirstLine tokens
  | .method m => p.setMethod m
  | .status code => p.setStatus code
  | .header name value => p.setHeader name value
  | .known name value => p.set name value
  | .number name n => p.setInt name n

/-- The packets that come of changes, from an empty packet or from one that was read. -/
inductive Built : Packet → Prop
  | empty : Built {}
  | read {bs : Utf8.Octets} {p : Packet} (h : parse bs = .ok p) : Built p
  | change {p : Packet} (h : Built p) (c : Change) : Built (p.apply c)

/-- What no change of a packet touches. -/
structure Unsent (p : Packet) : Prop where
  headers : p.headers.Normal
  sender : p.sender = none
  interface : p.interface = none

theorem Unsent.setHeader {p : Packet} (h : p.Unsent) (name value : String) : (p.setHeader name value).Unsent :=
  ⟨h.headers.set name value, h.sender, h.interface⟩

theorem Unsent.setFirstLine {p : Packet} (h : p.Unsent) (tokens : List String) : (p.setFirstLine tokens).Unsent :=
  ⟨h.headers, h.sender, h.interface⟩

/-- No change gives a packet a sender or a header name twice. -/
theorem Unsent.apply {p : Packet} (h : p.Unsent) (c : Change) : (p.apply c).Unsent := by
  cases c with
  | firstLine tokens => exact h.setFirstLine tokens
  | method m => exact h.setFirstLine _
  | status code => exact h.setFirstLine _
  | header name value => exact h.setHeader name value
  | known name value => exact h.setHeader _ value
  | number name n => exact h.setHeader _ _

theorem Built.unsent {p : Packet} (h : p.Built) : p.Unsent := by
  induction h with
  | empty => exact ⟨Headers.Normal.nil, rfl, rfl⟩
  | read h =>
    have hp := fitForWire_of_parse h
    exact ⟨hp.headers, hp.sender, hp.interface⟩
  | change _ c ih => exact ih.apply c

/-! ## Packets that survive the wire -/

/-- Being read back as itself is being fit for the wire. -/
theorem parse_toOctets_iff_fit {p : Packet} : parse p.toOctets = .ok p ↔ p.FitForWire :=
  ⟨fitForWire_of_parse, parse_toOctets_of_fit⟩

theorem dropBlanks_eq_self {cs : List Char} : dropBlanks cs = cs ↔ cs.head?.any isBlank = false := by
  cases cs with
  | nil => exact ⟨fun _ => rfl, fun _ => rfl⟩
  | cons c cs =>
    show _ ↔ isBlank c = false
    constructor
    · intro h
      exact head_dropWhile c (congrArg List.head? h)
    · intro h
      exact dropWhile_of_head fun d hd => Option.some.inj hd ▸ h

/-- A packet that was built is read back as itself if and only if its first line has a token, no token
holds a blank or a line end, every header name holds something but neither a line end nor a colon with
a blank behind it, and no header value holds a line end or starts with a blank. -/
theorem Built.parse_toOctets_iff {p : Packet} (h : p.Built) : parse p.toOctets = .ok p ↔
    p.firstLine ≠ [] ∧
    (∀ t ∈ p.firstLine, ' ' ∉ t.toList ∧ ¬ lineEnd <:+: t.toList) ∧
    (∀ e ∈ p.headers, e.1 ≠ "" ∧ ¬ lineEnd <:+: e.1.toList ∧ ¬ [':', ' '] <:+: e.1.toList) ∧
    ∀ e ∈ p.headers, ¬ lineEnd <:+: e.2.toList ∧ e.2.toList.head?.any isBlank = false := by
  obtain ⟨hheaders, hsender, hinterface⟩ := h.unsent
  rw [parse_toOctets_iff_fit]
  constructor
  · rintro ⟨hline, htoken, hentry, -, -, -⟩
    refine ⟨hline, fun t ht => ?_, fun e he => ?_, fun e he => ?_⟩
    · obtain ⟨hblank, hend⟩ := htoken t ht
      exact ⟨fun hm => hblank ((List.singleton_infix_iff ' ' _).2 hm), hend⟩
    · exact ⟨(hentry e he).named, (hentry e he).name_line, (hentry e he).name_cut⟩
    · exact ⟨(hentry e he).value_line, dropBlanks_eq_self.1 (hentry e he).value_trimmed⟩
  · rintro ⟨hline, htoken, hname, hvalue⟩
    refine ⟨hline, fun t ht => ?_, fun e he => ?_, hheaders, hsender, hinterface⟩
    · obtain ⟨hblank, hend⟩ := htoken t ht
      exact ⟨fun hi => hblank ((List.singleton_infix_iff ' ' _).1 hi), hend⟩
    · obtain ⟨hnamed, hnameLine, hcut⟩ := hname e he
      obtain ⟨hvalueLine, hhead⟩ := hvalue e he
      exact ⟨hnamed, hnameLine, hcut, hvalueLine, dropBlanks_eq_self.2 hhead⟩

/-- An announcement with an empty token, line ends cut in half, a colon at the end of a name and a header
value of its own. -/
def announcement (value : String) : Packet :=
  ((((({} : Packet).apply (.firstLine ["NOTIFY", "", "\n*\r"])).apply (.header "a:" "")).apply
    (.header "\nb:c" ":\r")).apply (.number .seq (-1))).apply (.known .server value)

theorem announcement_built (value : String) : (announcement value).Built :=
  .change (.change (.change (.change (.change .empty _) _) _) _) _

/-- A line end cut in half does no harm, a blank that is no space does. -/
theorem parse_toOctets_announcement :
    (announcement "x\r").Built ∧ parse (announcement "x\r").toOctets = .ok (announcement "x\r") ∧
    (announcement "\u00a0x").Built ∧ parse (announcement "\u00a0x").toOctets ≠ .ok (announcement "\u00a0x") := by
  refine ⟨announcement_built _, ?_, announcement_built _, fun h => ?_⟩
  · exact (Built.parse_toOctets_iff (announcement_built _)).2 ⟨by decide, by decide, by decide, by decide⟩
  · obtain ⟨-, -, -, hvalue⟩ := (Built.parse_toOctets_iff (announcement_built _)).1 h
    have hblank := (hvalue ("SERVER", "\u00a0x") (by decide)).2
    exact absurd hblank (by decide)

end Packet

end Upnp.Ssdp
