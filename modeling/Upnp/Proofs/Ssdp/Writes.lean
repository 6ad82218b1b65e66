import Upnp.Proofs.Ssdp.Building
import Upnp.Proofs.Ssdp.Lines

/-
What was written into a packet. The writes of a packet are the header lines it was read from and the
changes made to it since, in order; its headers are a summary of them: a name for each that was ever
written, in the order of the first writes, and with it the value of the last write under that name in
any letter case.
-/

namespace Upnp.Text

/-! ## Names in any letter case -/

theorem toNat_toLower (c : Char) :
    c.toLower.toNat = if 65 ≤ c.toNat ∧ c.toNat ≤ 90 then c.toNat + 32 else c.toNat := by
  have hA : 'A'.val.toNat = 65 := rfl
  have hZ : 'Z'.val.toNat = 90 := rfl
  have ha : ('a'.val - 'A'.val : UInt32).toNat = 32 := rfl
  have hc : c.toNat = c.val.toNat := rfl
  unfold Char.toLower
  split
  · rename_i h
    simp only [UInt32.le_iff_toNat_le, hA, hZ] at h
    rw [hc, if_pos h]
    show (c.val + ('a'.val - 'A'.val)).toNat = _
    rw [UInt32.toNat_add, ha]
    omega
  · rename_i h
    simp only [UInt32.le_iff_toNat_le, hA, hZ] at h
    rw [hc, if_neg h]

theorem toLower_eq_iff {c d : Char} : c.toLower = d.toLower ↔ c.toUpper = d.toUpper := by
  rw [← Char.toNat_inj, ← Char.toNat_inj, toNat_toLower, toNat_toLower, Ssdp.toNat_toUpper, Ssdp.toNat_toUpper]
  repeat' split
  all_goals omega

theorem map_toLower_eq_iff : ∀ {cs ds : List Char},
    cs.map Char.toLower = ds.map Char.toLower ↔ cs.map Char.toUpper = ds.map Char.toUpper
  | [], [] => Iff.rfl
  | [], _ :: _ => by simp
  | _ :: _, [] => by simp
  | c :: cs, d :: ds => by
    rw [List.map_cons, List.map_cons, List.map_cons, List.map_cons, List.cons.injEq, List.cons.injEq, toLower_eq_iff,
      map_toLower_eq_iff]

/-- Texts are equal up to the case of ASCII letters just if they are equal in upper case. -/
theorem eqIgnoringAsciiCase_iff {s t : String} : eqIgnoringAsciiCase s t = true ↔ upperAscii s = upperAscii t := by
  unfold eqIgnoringAsciiCase lowerAscii upperAscii
  rw [beq_iff_eq, String.ofList_inj, String.ofList_inj, map_toLower_eq_iff]

end Upnp.Text

namespace Upnp.Ssdp

open Upnp.Text Upnp.Decimal

/-! ## Bags as summaries of writes -/

/-- The value of the last write under a name, in any letter case. -/
def lastWritten? (name : String) (writes : List (String × String)) : Option String :=
  (writes.findRev? fun w => eqIgnoringAsciiCase w.1 name).map Prod.snd

theorem lastWritten?_concat (name : String) (writes : List (String × String)) (k v : String) :
    lastWritten? name (writes ++ [(k, v)]) =
      if upperAscii k = upperAscii name then some v else lastWritten? name writes := by
  unfold lastWritten?
  rw [List.findRev?_eq_find?_reverse, List.findRev?_eq_find?_reverse, List.reverse_append, List.reverse_singleton,
    List.singleton_append, List.find?_cons]
  by_cases h : upperAscii k = upperAscii name
  · rw [eqIgnoringAsciiCase_iff.2 h, if_pos h]
    rfl
  · rw [Bool.eq_false_iff.2 (mt eqIgnoringAsciiCase_iff.1 h), if_neg h]

theorem lastWritten?_append (name : String) (earlier later : List (String × String)) :
    lastWritten? name (earlier ++ later) = (lastWritten? name later).or (lastWritten? name earlier) := by
  unfold lastWritten?
  rw [List.findRev?_eq_find?_reverse, List.findRev?_eq_find?_reverse, List.findRev?_eq_find?_reverse,
    List.reverse_append, List.find?_append, Option.map_or]

/-- The names of writes in upper case, in the order of the first write of each. -/
def firstNames (writes : List (String × String)) : List String :=
  (writes.map fun w => upperAscii w.1).eraseDups

theorem firstNames_concat (writes : List (String × String)) (k v : String) :
    firstNames (writes ++ [(k, v)]) =
      if upperAscii k ∈ firstNames writes then firstNames writes else firstNames writes ++ [upperAscii k] := by
  unfold firstNames
  rw [List.map_append, List.map_singleton, List.eraseDups_append]
  split
  · rename_i h
    rw [List.mem_eraseDups] at h
    simp [List.removeAll, h]
  · rename_i h
    rw [List.mem_eraseDups] at h
    have hone : [upperAscii k].eraseDups = [upperAscii k] := rfl
    simp [List.removeAll, h, hone]

namespace Headers

/-- A bag holds the summary of writes. -/
structure Sums (hs : Headers) (writes : List (String × String)) : Prop where
  names : hs.map (·.1) = firstNames writes
  value : ∀ name, hs.get? name = lastWritten? name writes

theorem Sums.nil : Sums [] [] :=
  ⟨rfl, fun _ => rfl⟩

theorem find?_cons (key value k : String) (hs : Headers) :
    find? k ((key, value) :: hs) = if key = k then some value else hs.find? k := by
  unfold find?
  rw [List.lookup_cons]
  by_cases h : key = k
  · rw [if_pos h, h, beq_self_eq_true]
  · rw [if_neg h, beq_false_of_ne (Ne.symm h)]

/-- A lookup after a write sees the value under the name that was written, and else what it saw before. -/
theorem find?_put (key value k : String) : ∀ hs : Headers,
    (put key value hs).find? k = if key = k then some value else hs.find? k
  | [] => find?_cons key value k []
  | (k', v) :: hs => by
    rw [put]
    split
    · rename_i hk
      subst hk
      rw [find?_cons, find?_cons]
      split <;> rfl
    · rename_i hk
      rw [find?_cons, find?_cons, find?_put key value k hs]
      by_cases h : k' = k
      · rw [if_pos h, if_pos h, if_neg fun he => hk (h.trans he.symm)]
      · rw [if_neg h, if_neg h]

theorem keys_put (key value : String) (hs : Headers) : (put key value hs).map (·.1) =
    if key ∈ hs.map (·.1) then hs.map (·.1) else hs.map (·.1) ++ [key] := by
  split
  · rename_i h
    exact keys_put_of_mem value h
  · rename_i h
    rw [put_of_not_mem value h, List.map_append]
    rfl

/-- One more write is summed up by setting it. -/
theorem Sums.set {hs : Headers} {writes : List (String × String)} (h : hs.Sums writes) (name value : String) :
    (hs.set name value).Sums (writes ++ [(name, value)]) where
  names := by
    unfold Headers.set
    rw [keys_put, firstNames_concat, h.names]
  value := fun n => by
    have hn := h.value n
    unfold get? at hn ⊢
    unfold Headers.set
    rw [find?_put, lastWritten?_concat, hn]

theorem Sums.setAll : ∀ {hs : Headers} {writes : List (String × String)} (entries : List (String × String)),
    hs.Sums writes → (hs.setAll entries).Sums (writes ++ entries)
  | _, writes, [], h => by
    rw [List.append_nil]
    exact h
  | _, writes, (k, v) :: entries, h => by
    have ih := Sums.setAll entries (h.set k v)
    rwa [List.append_assoc, List.singleton_append] at ih

end Headers

namespace Packet

/-! ## The writes of a packet -/

/-- What a change writes into the headers. -/
def Change.written? : Change → Option (String × String)
  | .header name value => some (name, value)
  | .known name value => some (name.text, value)
  | .number name n => some (name.text, showInt n)
  | .firstLine _ | .method _ | .status _ => none

theorem headers_apply (p : Packet) (c : Change) : (p.apply c).headers = p.headers.setAll c.written?.toList := by
  cases c <;> rfl

/-- The packets that come of changes, from an empty packet or from one that was read, each with the
writes that led to its headers: the header lines it was read from, and the changes since. -/
inductive Written : Packet → List (String × String) → Prop
  | empty : Written {} []
  | read {bs : Utf8.Octets} {p : Packet} (h : parse bs = .ok p) :
    Written p (entriesOf (splitAll lineEndOctets bs).tail)
  | change {p : Packet} {writes : List (String × String)} (h : Written p writes) (c : Change) :
    Written (p.apply c) (writes ++ c.written?.toList)

/-- However a packet came about, its headers sum up what was written. -/
theorem Written.sums {p : Packet} {writes : List (String × String)} (h : Written p writes) :
    p.headers.Sums writes := by
  induction h with
  | empty => exact Headers.Sums.nil
  | read h =>
    obtain ⟨first, lines, hlines, rfl⟩ := lines_of_parse h
    rw [hlines]
    exact Headers.Sums.setAll _ Headers.Sums.nil
  | change _ c ih =>
    rw [headers_apply]
    exact ih.setAll _

theorem Written.built {p : Packet} {writes : List (String × String)} (h : Written p writes) : p.Built := by
  induction h with
  | empty => exact .empty
  | read h => exact .read h
  | change _ c ih => exact .change ih c

/-- Headers are an ordered map that ignores the case of ASCII letters: names are stored in upper case and
each once, in the order of their first writing, and under every name stands the value of the last
writing of a name that is equal to it up to case, or nothing where there was none. -/
theorem Written.headers_summed {p : Packet} {writes : List (String × String)} (h : Written p writes) :
    (∀ e ∈ p.headers, upperAscii e.1 = e.1) ∧ (p.headers.map (·.1)).Nodup ∧
    (∀ name, p.header? name = lastWritten? name writes) ∧
    p.headers.map (·.1) = firstNames writes :=
  ⟨h.built.unsent.headers.upper, h.built.unsent.headers.nodup, h.sums.value, h.sums.names⟩

/-- A notice that names its target twice, has a line without name and a line behind the blank one. -/
def renamedOctets : Utf8.Octets :=
  Utf8.encode "NOTIFY *\r\nnt:a\r\nsid: b\r\n: c\r\nNt:\td\r\n\r\nsid: e"

def renamedPacket : Packet where
  firstLine := ["NOTIFY", "*"]
  headers := [("NT", "d"), ("SID", "b")]

def renamedWrites : List (String × String) :=
  [("nt", "a"), ("sid", "b"), ("Nt", "d"), ("USN", "u"), ("sId", "")]

theorem Written.headers_summed_renamed : let p := (renamedPacket.apply (.known .usn "u")).apply (.header "sId" "")
    Written p renamedWrites ∧ p.header? "nT" = some "d" ∧ p.header? "Sid" = some "" ∧ p.header? "ext" = none ∧
      p.headers.map (·.1) = ["NT", "SID", "USN"] := by
  have hread : parse renamedOctets = .ok renamedPacket := by rfl
  have h : Written ((renamedPacket.apply (.known .usn "u")).apply (.header "sId" "")) renamedWrites :=
    .change (.change (.read hread) (.known .usn "u")) (.header "sId" "")
  obtain ⟨-, -, hvalue, hnames⟩ := Written.headers_summed h
  exact ⟨h, (hvalue _).trans (by decide), (hvalue _).trans (by decide), (hvalue _).trans (by decide),
    hnames.trans (by decide)⟩

end Packet

end Upnp.Ssdp
