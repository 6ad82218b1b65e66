import Upnp.Action.Control
import Upnp.Proofs.Action.Copying
import Upnp.Proofs.Decimal.Integer
import Upnp.Proofs.Soap.Call
import Upnp.Proofs.Ssdp.Numbers

/-
Numbers in arguments, and numbers over both wires. What is set by name is what a message sets that
lists the value alone, and an argument that takes a value over a message has the number that the
value denotes; so 64-bit numbers come through calls, as they come through packets.
-/

namespace Upnp

open Upnp.Text Upnp.Decimal Upnp.Ssdp Upnp.Soap

namespace Action

variable {a : Action} {name : String}

/-! ## Looking arguments up -/

theorem exists_argument (h : name ∈ a.argumentNames) : ∃ x, x.name = name ∧ a.argument name = .ok x := by
  obtain ⟨y, hy, rfl⟩ := List.mem_map.1 h
  obtain ⟨x, hx⟩ := Option.isSome_iff_exists.1 (List.find?_isSome (p := (·.name == y.name)).2 ⟨y, hy, beq_self_eq_true y.name⟩)
  exact ⟨x, by simpa using List.find?_some hx, argument_eq_ok_iff_find?.2 hx⟩

/-- An argument has the last value that is listed for its name. -/
theorem getString_assign {values : List (String × String)} {v : String} (h : name ∈ a.argumentNames)
    (hv : LastListed values name v) : ({ a with arguments := assign a.arguments values }).getString name = .ok v := by
  obtain ⟨x, rfl, hx⟩ := exists_argument h
  have hfound : ({ a with arguments := assign a.arguments values }).argument x.name = .ok (given values x) := by
    rw [argument_eq_ok_iff_find?, find?_assign, argument_eq_ok_iff_find?.1 hx, Option.map_some]
  rw [getString, hfound, given_of_lastListed hv]
  rfl

/-! ## Numbers of arguments -/

theorem int_eq_ok_iff {x : Argument} {n : Int} :
    x.int = .ok n ↔ Denotes x.value.toList n ∧ IntRange.signed64.contains n = true := by
  rw [← readIntChars_signed_eq_ok_iff (by decide) (by decide)]
  unfold Argument.int readInt
  cases readIntChars .signed64 x.value.toList <;> simp [Except.mapError]

/-- An argument has a 64-bit number just if its text, as it is, denotes the number and the number is one
of 64 bits. -/
theorem getInt_eq_ok_iff {n : Int} : a.getInt name = .ok n ↔
    ∃ v, a.getString name = .ok v ∧ Denotes v.toList n ∧ IntRange.signed64.contains n = true := by
  unfold getInt readArgument getString
  cases a.argument name with
  | error e => simp [Except.bind, Except.map]
  | ok x =>
    have hint : x.int.mapError (ActionError.invalidValue name) = .ok n ↔ x.int = .ok n := by
      cases x.int <;> simp [Except.mapError]
    simp only [Except.bind, Except.map, hint, int_eq_ok_iff, Except.ok.injEq, exists_eq_left']

/-- Setting a number by name sets what a message sets that lists its text. -/
theorem setInt_eq_ok (h : name ∈ a.argumentNames) (n : Int) :
    a.setInt name n = .ok { a with arguments := assign a.arguments [(name, showInt n)] } := by
  obtain ⟨x, -, hx⟩ := exists_argument h
  unfold setInt updateArgument
  rw [hx]
  rfl

theorem getString_setInt (h : name ∈ a.argumentNames) (n : Int) :
    ({ a with arguments := assign a.arguments [(name, showInt n)] }).getString name = .ok (showInt n) :=
  getString_assign h ⟨[], [], rfl, List.not_mem_nil⟩

/-- A value that a request lists last for a name is the value of the argument that takes it. -/
theorem applyRequest_encodeRequest {b : Action} {v : String} {values : List (String × String)}
    (hname : isLocalName b.name.toList = true) (hnames : ∀ x ∈ values, isLocalName x.1.toList = true)
    (hb : name ∈ b.argumentNames) (hv : LastListed values name v) (serviceType : String) :
    ∃ call r, decodeRequest (Utf8.encode (encodeRequest serviceType b.name values)) = .ok call ∧
      b.applyRequest call = .ok r ∧ r.getString name = .ok v :=
  ⟨_, _, decodeRequest_encodeRequest hname serviceType hnames, setValues_eq b values, getString_assign hb hv⟩

end Action

/-! ## Both wires -/

/-- Every 64-bit number comes through both wires. A packet on which it was set, under any known header that
was not written since, is read back with it, as long as reading gets to the headers. An argument on which it
was set gives it to the argument of its name in every action that takes a message about it, as long as the
message lists its value last for the name and its names are local. And a header has a number just if its
text, trimmed, denotes it and it is one of 64 bits. -/
theorem int64_over_wires :
    (∀ (p : Packet) (h : HeaderName) (n : Int) (cs : List Packet.Change), IntRange.signed64.contains n = true →
      (∀ c ∈ cs, c.Spares h.text) → (cs.foldl Packet.apply (p.setInt h n)).KeepsHeaders →
      ∃ r, Packet.parse (cs.foldl Packet.apply (p.setInt h n)).toOctets = .ok r ∧ r.headerInt? h.text = some n) ∧
    (∀ (a b : Action) (name serviceType : String) (n : Int), IntRange.signed64.contains n = true →
      name ∈ a.argumentNames → name ∈ b.argumentNames → b.name = a.name → isLocalName a.name.toList = true →
      ∃ a', a.setInt name n = .ok a' ∧ ∀ (v : String) (values : List (String × String)), a'.getString name = .ok v →
        Action.LastListed values name v → (∀ x ∈ values, isLocalName x.1.toList = true) →
        ∃ call r, decodeRequest (Utf8.encode (encodeRequest serviceType a'.name values)) = .ok call ∧
          b.applyRequest call = .ok r ∧ r.getInt name = .ok n) ∧
    ∀ (p : Packet) (name text : String) (n : Int), p.header? name = some text →
      (p.headerInt? name = some n ↔ Denotes (trim text).toList n ∧ IntRange.signed64.contains n = true) := by
  refine ⟨fun p h n cs hn hcs hk => Packet.headerInt?_setInt_parse hn hcs hk, ?_, ?_⟩
  · intro a b name serviceType n hn ha hb hname hlocal
    refine ⟨_, Action.setInt_eq_ok ha n, fun v values hv hlast hlocals => ?_⟩
    rw [Action.getString_setInt ha, Except.ok.injEq] at hv
    subst hv
    rw [← hname] at hlocal
    obtain ⟨call, r, hcall, hr, hstring⟩ :=
      Action.applyRequest_encodeRequest hlocal hlocals hb hlast serviceType
    rw [hname] at hcall
    exact ⟨call, r, hcall, hr, Action.getInt_eq_ok_iff.2 ⟨_, hstring, denotes_showInt n, hn⟩⟩
  · intro p name text n htext
    rw [Packet.headerInt?_eq_some_iff, htext]
    simp only [Option.some.injEq, exists_eq_left']

/-- The least number of 64 bits, which has no counterpart above zero. -/
def least64 : Int :=
  -9223372036854775808

/-- A notice with a header in its first line, and a padded number. -/
def countedNotice : Packet where
  firstLine := ["NOTIFY", "*", "HTTP/1.1\r\nseq: 7"]
  headers := [("BOOTID.UPNP.ORG", "+007\t")]

/-- Other headers of the notice. -/
def otherHeaders : List Packet.Change :=
  [.known .server "s", .number .bootId 1]

/-- An action that goes to a place. -/
def seek : Action where
  name := "Seek"
  arguments := [{ name := "Unit", direction := .input, value := "REL_COUNT" }, { name := "Target", direction := .input }]

/-- The action as another device declares it. -/
def seekElsewhere : Action where
  name := "Seek"
  arguments := [{ name := "Target", direction := .input, value := "0" }, { name := "Reached", direction := .output }]

theorem int64_over_wires_least :
    (IntRange.signed64.contains least64 = true ∧ (∀ c ∈ otherHeaders, c.Spares HeaderName.seq.text) ∧
      (otherHeaders.foldl Packet.apply (countedNotice.setInt .seq least64)).KeepsHeaders ∧
      ∃ r, Packet.parse (otherHeaders.foldl Packet.apply (countedNotice.setInt .seq least64)).toOctets = .ok r ∧
        r.headerInt? "SEQ" = some least64) ∧
    ("Target" ∈ seek.argumentNames ∧ "Target" ∈ seekElsewhere.argumentNames ∧ seekElsewhere.name = seek.name ∧
      isLocalName seek.name.toList = true ∧
      ∃ a, seek.setInt "Target" least64 = .ok a ∧ a.getString "Target" = .ok "-9223372036854775808" ∧
        Action.LastListed (a.valuesIn .input) "Target" "-9223372036854775808" ∧
        (∀ x ∈ a.valuesIn .input, isLocalName x.1.toList = true) ∧
        ∃ call r, decodeRequest (Utf8.encode (encodeRequest "urn:x" a.name (a.valuesIn .input))) = .ok call ∧
          seekElsewhere.applyRequest call = .ok r ∧ r.getInt "Target" = .ok least64) ∧
    countedNotice.header? "BootId.upnp.org" = some "+007\t" ∧ countedNotice.headerInt? "BootId.upnp.org" = some 7 := by
  obtain ⟨hpacket, hcall, hheader⟩ := int64_over_wires
  have hn : IntRange.signed64.contains least64 = true := by decide
  refine ⟨?_, ?_, rfl, ?_⟩
  · have hspares : ∀ c ∈ otherHeaders, c.Spares HeaderName.seq.text := by decide
    have hkeeps : (otherHeaders.foldl Packet.apply (countedNotice.setInt .seq least64)).KeepsHeaders :=
      ⟨⟨by decide, by decide⟩, by decide, splitOnce?_eq_none.1 (by decide)⟩
    exact ⟨hn, hspares, hkeeps, hpacket countedNotice .seq least64 otherHeaders hn hspares hkeeps⟩
  · have hseek : "Target" ∈ seek.argumentNames := by decide
    have helsewhere : "Target" ∈ seekElsewhere.argumentNames := by decide
    have hlocal : isLocalName seek.name.toList = true := by decide
    refine ⟨hseek, helsewhere, rfl, hlocal, ?_⟩
    obtain ⟨a, ha, hsent⟩ := hcall seek seekElsewhere "Target" "urn:x" least64 hn hseek helsewhere rfl hlocal
    have hset : seek.setInt "Target" least64 = .ok (seek.modifyArgument "Target" (·.setInt least64)) := rfl
    rw [hset] at ha
    cases ha
    have hstring : (seek.modifyArgument "Target" (·.setInt least64)).getString "Target" =
        .ok "-9223372036854775808" := by decide
    have hlast : Action.LastListed ((seek.modifyArgument "Target" (·.setInt least64)).valuesIn .input) "Target"
        "-9223372036854775808" := ⟨[("Unit", "REL_COUNT")], [], by decide, by decide⟩
    have hlocals : ∀ x ∈ (seek.modifyArgument "Target" (·.setInt least64)).valuesIn .input,
        isLocalName x.1.toList = true := by decide
    exact ⟨_, hset, hstring, hlast, hlocals, hsent _ _ hstring hlast hlocals⟩
  · have hdigits : IsDigits ['0', '0', '7'] := by decide
    exact (hheader countedNotice "BootId.upnp.org" "+007\t" 7 rfl).2 ⟨.plus hdigits, by decide⟩

/-- A packet with a line end at the end of its first line, and clean headers. -/
def brokenLine : Packet where
  firstLine := ["A\r\n"]

/-- An action with two arguments of one name. -/
def doubled : Action where
  name := "Set"
  arguments := [{ name := "Level", direction := .input }, { name := "Level", direction := .input, value := "0" }]

/-- An action with an argument whose name has a prefix. -/
def prefixedLevel : Action where
  name := "Set"
  arguments := [{ name := "x:Level", direction := .input }]

/-- Numbers are lost behind a blank line in the first line, under a name with a prefix and under a name that
another value is listed for. -/
theorem int64_lost_on_wires :
    ((∀ h ∈ (brokenLine.setInt .bootId 5).headers, FitForLine h) ∧
      ∃ r, Packet.parse (brokenLine.setInt .bootId 5).toOctets = .ok r ∧ r.headerInt? "BOOTID.UPNP.ORG" = none) ∧
    (∃ a call r, prefixedLevel.setInt "x:Level" 5 = .ok a ∧
      decodeRequest (Utf8.encode (encodeRequest "urn:x" a.name (a.valuesIn .input))) = .ok call ∧
      prefixedLevel.applyRequest call = .ok r ∧ (r.getInt "x:Level").toOption = none) ∧
    ∃ a call r, doubled.setInt "Level" 5 = .ok a ∧
      decodeRequest (Utf8.encode (encodeRequest "urn:x" a.name (a.valuesIn .input))) = .ok call ∧
      doubled.applyRequest call = .ok r ∧ r.getInt "Level" = .ok 0 := by
  refine ⟨⟨by decide, { firstLine := ["A"] }, by rfl, by rfl⟩, ?_, ?_⟩
  · have hread : decodeRequest (Utf8.encode (encodeRequest "urn:x" "Set" [("x:Level", "5")])) =
        .ok ⟨"Set", some "urn:x", [("Level", "5")]⟩ := by
      unfold decodeRequest encodeRequest
      rw [body_encode_envelope (proper_actionElement (by decide) "urn:x" (by decide))]
      decide +kernel
    exact ⟨_, _, _, rfl, hread, rfl, by decide⟩
  · exact ⟨_, _, _, rfl, decodeRequest_encodeRequest (by decide) "urn:x" (by decide), rfl, by decide⟩

end Upnp
