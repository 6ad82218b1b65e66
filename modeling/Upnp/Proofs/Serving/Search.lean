import Upnp.Serving.Responder
import Upnp.Proofs.Decimal.Integer
import Upnp.Proofs.Device.Within
import Upnp.Proofs.Ssdp.Building
import Upnp.Proofs.Url.Text

/-
A search and its answer, as they go over the wire. The target of a search comes back in two headers of
the answer; as long as it can stand in a header at all, both packets are read as they were written, so
that the searcher learns what the device wrote and the device what the searcher asked for.
-/

namespace Upnp

open Upnp.Text Upnp.Decimal

/-! ## Values of headers -/

namespace Ssdp

/-- The text can stand in a header: it holds no line end and does not start with a blank. -/
def IsHeaderValue (s : String) : Prop :=
  ¬ Packet.lineEnd <:+: s.toList ∧ s.toList.head?.any isBlank = false

instance (s : String) : Decidable (IsHeaderValue s) :=
  inferInstanceAs (Decidable (_ ∧ _))

/-- A text without blanks and controls can stand in a header. -/
theorem isHeaderValue_of_unbroken {s : String} (h : Url.Unbroken s.toList) (hb : s.toList.head?.any isBlank = false) :
    IsHeaderValue s := by
  refine ⟨fun hi => ?_, hb⟩
  have hreturn := h '\r' (hi.subset (by decide))
  exact absurd hreturn (by decide)

theorem isHeaderValue_showInt (n : Nat) : IsHeaderValue (showInt n) := by
  have hdigit := isDigit_of_mem_showInt (n := n)
  constructor
  · intro hi
    exact absurd (hdigit '\r' (hi.subset (by decide))) (by decide)
  · cases hs : (showInt n).toList with
    | nil => rfl
    | cons c cs => exact isBlank_of_isDigit (hdigit c (hs ▸ List.mem_cons_self))

/-- Two texts with colons between them can stand in a header if each of them can. -/
theorem IsHeaderValue.joined {s t : String} (hs : IsHeaderValue s) (ht : IsHeaderValue t) :
    IsHeaderValue (s ++ "::" ++ t) := by
  have hchars : (s ++ "::" ++ t).toList = s.toList ++ ':' :: ':' :: t.toList := by simp
  constructor
  · rw [hchars, infix_append_cons_iff (by decide), infix_cons_iff_of_not_mem (by decide) (by decide)]
    exact not_or.2 ⟨hs.1, ht.1⟩
  · rw [hchars]
    cases hc : s.toList with
    | nil => rfl
    | cons c cs =>
      have hhead := hs.2
      rw [hc] at hhead
      exact hhead

namespace Packet

/-- A packet that was built is read as it was written when its names are those of headers and its
values can stand in headers. -/
theorem parse_of_headerValues {p : Packet} (hb : p.Built) (line names values : List String)
    (hline : p.firstLine = line) (hnames : p.headers.map Prod.fst = names) (hvalues : p.headers.map Prod.snd = values)
    (hl : line ≠ [] ∧ ∀ t ∈ line, ' ' ∉ t.toList ∧ ¬ lineEnd <:+: t.toList)
    (hn : ∀ n ∈ names, n ≠ "" ∧ ¬ lineEnd <:+: n.toList ∧ ¬ [':', ' '] <:+: n.toList)
    (hv : ∀ v ∈ values, IsHeaderValue v) : parse p.toOctets = .ok p := by
  subst hline hnames hvalues
  exact (Built.parse_toOctets_iff hb).2 ⟨hl.1, hl.2, fun e he => hn e.1 (List.mem_map_of_mem he),
    fun e he => hv e.2 (List.mem_map_of_mem he)⟩

/-! ## Searches -/

theorem built_search (st : String) (mx : Int) : (search st mx).Built :=
  .change (.change (.change (.change (.change .empty (.method searchMethod)) (.known .host multicastHost))
    (.known .man discover)) (.known .st st)) (.number .mx mx)

/-- A search is read as it was written, for any target that can stand in a header. -/
theorem parse_search {st : String} (h : IsHeaderValue st) (mx : Nat) :
    parse (search st mx).toOctets = .ok (search st mx) := by
  refine parse_of_headerValues (built_search st mx) [searchMethod, "*", httpVersion]
    ["HOST", "MAN", "ST", "MX"] [multicastHost, discover, st, showInt mx]
    rfl rfl rfl (by decide) (by decide) ?_
  simp only [List.forall_mem_cons]
  exact ⟨by decide, by decide, h, isHeaderValue_showInt mx, fun _ hv => absurd hv List.not_mem_nil⟩

/-! ## Answers -/

/-- A response to a search. -/
def found (server date location st usn : String) : Packet :=
  ((((response server date).set .location location).set .st st).set .usn usn).set .cacheControl
    ("max-age=" ++ showInt defaultMaxAge)

theorem built_found (server date location st usn : String) : (found server date location st usn).Built :=
  .change (.change (.change (.change (.change (.change (.change (.change .empty (.status 200)) (.known .server server))
    (.known .ext "")) (.known .date date)) (.known .location location)) (.known .st st)) (.known .usn usn))
    (.known .cacheControl _)

theorem parse_found {server date location st usn : String} (hserver : IsHeaderValue server) (hdate : IsHeaderValue date)
    (hlocation : IsHeaderValue location) (hst : IsHeaderValue st) (husn : IsHeaderValue usn) :
    parse (found server date location st usn).toOctets = .ok (found server date location st usn) := by
  refine parse_of_headerValues (built_found _ _ _ _ _) [httpVersion, "200", "OK"]
    ["SERVER", "EXT", "DATE", "LOCATION", "ST", "USN", "CACHE-CONTROL"]
    [server, "", date, location, st, usn, "max-age=1800"] rfl rfl rfl (by decide) (by decide) ?_
  simp only [List.forall_mem_cons]
  exact ⟨hserver, by decide, hdate, hlocation, hst, husn, by decide, fun _ hv => absurd hv List.not_mem_nil⟩

theorem status_found (server date location st usn : String) : (found server date location st usn).status = 200 :=
  rfl

theorem maxAge_found (server date location st usn : String) :
    (found server date location st usn).maxAge = defaultMaxAge :=
  rfl

end Packet

end Ssdp

namespace Responder

open Ssdp

variable {r : Responder} {st : String}

/-! ## Searches and answers of a device -/

/-- The text of a location can stand in a header. -/
theorem isHeaderValue_location {d : Device} {address : String} {port : Nat} {u : Url}
    (h : d.locationUrlFor address port = .ok u) : IsHeaderValue u.text := by
  unfold Device.locationUrlFor at h
  cases ha : Url.absolute ("http://" ++ address ++ ":" ++ showInt port) d.node.descriptionUrl with
  | error e =>
    rw [ha] at h
    cases h
  | ok v =>
    rw [ha] at h
    cases h
    obtain ⟨hunbroken, hscheme⟩ := Url.unbroken_absolute ha
    refine isHeaderValue_of_unbroken hunbroken ?_
    unfold Url.text
    simp only [String.toList_append]
    rcases hscheme with hs | hs <;> rw [hs] <;> rfl

theorem isHeaderValue_usnFor {udn : String} (hudn : IsHeaderValue udn) (hst : IsHeaderValue st) :
    IsHeaderValue (usnFor udn st) := by
  unfold usnFor
  split
  · exact hudn
  · exact hudn.joined hst

theorem matchesSearch_search (st : String) (mx : Nat) : r.matchesSearch (Packet.search st mx) = true ↔
    st = rootDevice ∨
      ∃ d, r.device.Within d ∧ (d.node.deviceType = st ∨ ∃ s ∈ d.node.services, s.serviceType = st) := by
  have hdiscover : (Packet.search st mx).isDiscover = true := rfl
  have htarget : (Packet.search st mx).get? .st = some st := rfl
  have hroot : (Packet.search st mx).isRootSearch = true ↔ st = rootDevice := by
    show (some st == some rootDevice) = true ↔ _
    simp
  unfold matchesSearch
  simp only [hdiscover, htarget, Bool.true_and, Bool.or_eq_true, hroot, Device.hasDeviceType_iff,
    Device.hasServiceType_iff, and_or_left, exists_or]

theorem searchResponse_eq {p : Packet} {i : Net.Interface} {u : Url} (hst : p.get? .st = some st)
    (hu : r.device.locationUrlFor i.address r.port = .ok u) (date : String) : r.searchResponse date p i =
      .ok (Packet.found r.server date u.text st (usnFor r.device.node.udn st)) := by
  unfold searchResponse
  rw [hu, hst]
  rfl

/-- A search that goes over the wire reaches the device just when it is for root devices or for a type
of a device or service in the tree; and the answer that goes back over the wire, if the device has a
location to tell, names the target, the device and the location. -/
theorem search_exchange {date : String} (hudn : IsHeaderValue r.device.node.udn) (hst : IsHeaderValue st)
    (hserver : IsHeaderValue r.server) (hdate : IsHeaderValue date) (mx : Nat) :
    ∃ q, Packet.parse (Packet.search st mx).toOctets = .ok q ∧
      (r.matchesSearch q = true ↔ st = "upnp:rootdevice" ∨
        ∃ d, r.device.Within d ∧ (d.node.deviceType = st ∨ ∃ s ∈ d.node.services, s.serviceType = st)) ∧
      ∀ (i : Net.Interface) (u : Url), r.device.locationUrlFor i.address r.port = .ok u →
        ∃ sent a, r.searchResponse date q i = .ok sent ∧ Packet.parse sent.toOctets = .ok a ∧
          a.status = 200 ∧ a.get? .st = some st ∧
          a.get? .usn = some (if st = r.device.node.udn then r.device.node.udn
            else r.device.node.udn ++ "::" ++ st) ∧
          a.get? .location = some u.text ∧ a.maxAge = 1800 := by
  refine ⟨Packet.search st mx, Packet.parse_search hst mx, matchesSearch_search st mx, fun i u hu => ?_⟩
  have hanswer := searchResponse_eq (r := r) (p := Packet.search st mx) (i := i) rfl hu date
  have hparse := Packet.parse_found hserver hdate (isHeaderValue_location hu) hst
    (isHeaderValue_usnFor hudn hst)
  exact ⟨_, _, hanswer, hparse, Packet.status_found _ _ _ _ _, rfl, rfl, rfl, Packet.maxAge_found _ _ _ _ _⟩

/-- A house with a lamp, whose switch has half a line end in its type. -/
def house : Responder where
  device :=
    { node := { deviceType := "House", udn := "uuid:house", descriptionUrl := "description.xml" }
      embedded := [{ node := { deviceType := "Lamp", services := [{ serviceType := "Switch\r", serviceId := "1" }] } }] }
  server := "OS/1 UPnP/1.1"
  port := 6100

theorem search_exchange_house :
    IsHeaderValue house.device.node.udn ∧ IsHeaderValue "Switch\r" ∧ IsHeaderValue house.server ∧
    IsHeaderValue "Thu, 01 Jan 1970 00:00:00 GMT" ∧
    ∃ q, Packet.parse (Packet.search "Switch\r" 3).toOctets = .ok q ∧ house.matchesSearch q = true ∧
      ∃ u sent a, house.device.locationUrlFor "192.168.1.5" house.port = .ok u ∧
        house.searchResponse "Thu, 01 Jan 1970 00:00:00 GMT" q ⟨"eth0", "192.168.1.5"⟩ = .ok sent ∧
        Packet.parse sent.toOctets = .ok a ∧ a.status = 200 ∧ a.get? .usn = some "uuid:house::Switch\r" ∧
        a.get? .location = some "http://192.168.1.5:6100/description.xml" := by
  have hudn : IsHeaderValue house.device.node.udn := by decide
  have hst : IsHeaderValue "Switch\r" := by decide
  have hserver : IsHeaderValue house.server := by decide
  have hdate : IsHeaderValue "Thu, 01 Jan 1970 00:00:00 GMT" := by decide
  have hlocation : ∃ u, house.device.locationUrlFor "192.168.1.5" house.port = .ok u ∧
      u.text = "http://192.168.1.5:6100/description.xml" := by
    refine ⟨⟨"http", some ⟨none, some (.ipv4 3232235781), some 6100⟩, .segments ["description.xml"], none, none⟩,
      ?_, ?_⟩
    · decide +kernel
    · decide
  obtain ⟨u, hu, htext⟩ := hlocation
  obtain ⟨q, hq, hmatches, hanswer⟩ := search_exchange hudn hst hserver hdate 3
  obtain ⟨sent, a, hsent, ha, hstatus, -, husn, hlocated, -⟩ := hanswer ⟨"eth0", "192.168.1.5"⟩ u hu
  have hwithin : house.device.Within house.device.embedded[0] := .embedded .root (List.getElem_mem _)
  refine ⟨hudn, hst, hserver, hdate, q, hq, hmatches.2 (.inr ⟨_, hwithin, .inr ⟨_, List.mem_singleton_self _, rfl⟩⟩),
    u, sent, a, hu, hsent, ha, hstatus, husn, ?_⟩
  rw [hlocated, htext]

end Responder

end Upnp
