import Upnp.Device.Link
import Upnp.Proofs.Url.Base

/-
Completing the URLs of a device and its services. A path text that is a URL by itself is taken as it is, whatever
the base; all others stay at the host that the device was found at, if it names no base of its own. Only a
location that is no URL with a host is not passed over.
-/

namespace Upnp

open Url

namespace DeviceLink

/-! ## Paths that are URLs -/

/-- No path is completed at the device: it has no base, and its location, though not empty, is no URL with a
host. -/
def Stuck (l : DeviceLink) : Prop :=
  l.urlBase = "" ∧ l.locationUrl ≠ "" ∧ (parse? l.locationUrl).bind host? = none

instance (l : DeviceLink) : Decidable l.Stuck :=
  inferInstanceAs (Decidable (_ ∧ _ ∧ _))

theorem origin_of_no_host {text : String} (h : (parse? text).bind host? = none) :
    Url.origin text = .error (.notAbsolute text) := by
  have hnone : (parse? text).bind origin? = none := by
    cases hp : parse? text with
    | none => rfl
    | some u =>
      rw [hp] at h
      exact Option.map_eq_none_iff.2 h
  unfold Url.origin
  rw [hnone]

theorem origin_of_host {toAscii : DomainRule} {text : String} {u : Url} {host : Host}
    (hp : parse? text toAscii = some u) (hh : u.host? = some host) :
    ∃ o, u.origin? = some o ∧ Url.origin text toAscii = .ok o := by
  obtain ⟨o, ho⟩ : ∃ o, u.origin? = some o := by
    unfold origin?
    rw [hh]
    exact ⟨_, rfl⟩
  refine ⟨o, ho, ?_⟩
  unfold Url.origin
  rw [hp, Option.bind_some, ho]

/-- A device without a base whose location is misspelled completes nothing. -/
theorem absoluteUrl_of_stuck {l : DeviceLink} (h : l.Stuck) (path : String) :
    l.absoluteUrl path = .error (.badLocation l.locationUrl) := by
  obtain ⟨hbase, hlocation, horigin⟩ := h
  unfold absoluteUrl behind?
  rw [if_pos hbase]
  simp only [if_neg hlocation, origin_of_no_host horigin]

theorem absolute_of_parse? {path : String} {u : Url} (hp : parse? path = some u)
    (hs : u.scheme = "http" ∨ u.scheme = "https") (base : String) : Url.absolute base path = .ok u := by
  unfold Url.absolute requireHttp
  rw [hp]
  exact if_pos hs

theorem behind?_empty (path : String) (toAscii : DomainRule) : behind? "" path toAscii = none :=
  if_pos rfl

theorem behind?_of_parse? {path : String} {u : Url} (hp : parse? path = some u)
    (hs : u.scheme = "http" ∨ u.scheme = "https") {base : String} (hb : base ≠ "") : behind? base path = some u := by
  unfold behind?
  rw [if_neg hb, absolute_of_parse? hp hs]
  rfl

theorem absoluteUrl_of_not_stuck {path : String} {u : Url} (hp : parse? path = some u)
    (hs : u.scheme = "http" ∨ u.scheme = "https") {l : DeviceLink} (h : ¬ l.Stuck) : l.absoluteUrl path = .ok u := by
  unfold absoluteUrl
  by_cases hbase : l.urlBase = ""
  · rw [hbase, behind?_empty]
    by_cases hlocation : l.locationUrl = ""
    · simp only [if_pos hlocation, behind?_empty, absolute_of_parse? hp hs ""]
    · have hhost : (parse? l.locationUrl).bind host? ≠ none := fun hnone => h ⟨hbase, hlocation, hnone⟩
      obtain ⟨host, hhost⟩ := Option.ne_none_iff_exists'.1 hhost
      obtain ⟨v, hv, hhost⟩ := Option.bind_eq_some_iff.1 hhost
      obtain ⟨o, ho, horigin⟩ := origin_of_host hv hhost
      simp only [if_neg hlocation, horigin]
      rw [behind?_of_parse? hp hs (origin?_ne_empty ho)]
  · rw [behind?_of_parse? hp hs hbase]

/-- A path text that is a URL of the web is taken as it is, whatever the base and the location are, unless the
device is stuck with a location that is none; and so are the addresses of its services. -/
theorem absoluteUrl_of_absolute {path : String} {u : Url} (hp : parse? path = some u)
    (hs : u.scheme = "http" ∨ u.scheme = "https") (l : DeviceLink) :
    (l.absoluteUrl path = .ok u ↔ ¬ l.Stuck) ∧
    (l.Stuck → l.absoluteUrl path = .error (.badLocation l.locationUrl)) ∧
    ∀ s : ServiceLink, s.device = some l →
      (s.scpdUrl = path → (s.absoluteScpdUrl = .ok u ↔ ¬ l.Stuck)) ∧
      (s.controlUrl = path → (s.absoluteControlUrl = .ok u ↔ ¬ l.Stuck)) ∧
      (s.eventSubUrl = path → (s.absoluteEventSubUrl = .ok u ↔ ¬ l.Stuck)) := by
  have hdevice : l.absoluteUrl path = .ok u ↔ ¬ l.Stuck := by
    refine ⟨fun hok hstuck => ?_, absoluteUrl_of_not_stuck hp hs⟩
    rw [absoluteUrl_of_stuck hstuck path] at hok
    cases hok
  refine ⟨hdevice, fun hstuck => absoluteUrl_of_stuck hstuck path, fun s hl => ?_⟩
  have hservice : s.absoluteUrl path = .ok u ↔ ¬ l.Stuck := by
    unfold ServiceLink.absoluteUrl
    rw [hl]
    exact hdevice
  refine ⟨?_, ?_, ?_⟩ <;> rintro rfl <;> exact hservice

/-- A device at a location, without a base. -/
def located (location : String) : DeviceLink where
  deviceType := "urn:lamp"
  udn := "uuid:1"
  parentUdn := none
  urlBase := ""
  locationUrl := location

/-- The URL of the page x on a host by its name. -/
def pageOn (host : String) : Url where
  scheme := "http"
  authority := some { host := some (.domain host) }
  path := .segments ["x"]

/-- Neither the base nor the location of the device is a URL. -/
theorem absoluteUrl_of_absolute_page :
    let l : DeviceLink := { located "nowhere" with urlBase := "not a base" }
    parse? "http://host/x" = some (pageOn "host") ∧
    ((pageOn "host").scheme = "http" ∨ (pageOn "host").scheme = "https") ∧
    ¬ l.Stuck ∧ l.absoluteUrl "http://host/x" = .ok (pageOn "host") := by
  have hp : parse? "http://host/x" = some (pageOn "host") := by decide +kernel
  refine ⟨hp, .inl rfl, by decide, ?_⟩
  exact (absoluteUrl_of_absolute hp (.inl rfl) _).1.2 (by decide)

/-- A location that is no URL is in the way of a path text that is one. -/
theorem location_hides_absolute : parse? "http://host/x" = some (pageOn "host") ∧
    (located "not a url").absoluteUrl "http://host/x" = .error (.badLocation "not a url") := by
  decide +kernel

/-! ## Paths that are none -/

/-- Behind the location of a device without a base, every path text that is no URL by itself is completed to one
of the same scheme, host and port, whatever it begins with: the text is read as a path. So it is by every rule
for domains that keeps what it gives. -/
theorem absoluteUrl_sameOrigin {toAscii : DomainRule} (hk : toAscii.Keeps) {l : DeviceLink} {v : Url} {host : Host}
    {path : String} (hb : l.urlBase = "") (hl : parse? l.locationUrl toAscii = some v)
    (hs : v.scheme = "http" ∨ v.scheme = "https") (hh : v.host? = some host) (hp : parse? path toAscii = none) :
    ∃ u, l.absoluteUrl path toAscii = .ok u ∧ u.scheme = v.scheme ∧ u.host? = some host ∧ u.port? = v.port? ∧
      u.path = .segments (readSegments true ('/' :: behindBase path)) := by
  have hlocation : l.locationUrl ≠ "" := fun hempty => by
    have hnone : parse? "" toAscii = none := rfl
    rw [hempty, hnone] at hl
    cases hl
  obtain ⟨o, ho, horigin⟩ := origin_of_host hl hh
  obtain ⟨u, hjoin, hscheme, hhost, hport, hpath⟩ := parse?_join_origin hk hl hs ho path
  have habsolute : Url.absolute o path toAscii = .ok u := by
    unfold Url.absolute requireHttp
    rw [hp]
    simp only [hjoin, hscheme, if_pos hs]
  refine ⟨u, ?_, hscheme, hhost.trans hh, hport, hpath⟩
  unfold absoluteUrl
  rw [hb, behind?_empty]
  simp only [if_neg hlocation, horigin, behind?, if_neg (origin?_ne_empty ho), habsolute]
  rfl

/-- The URL of the description at 192.168.1.5. -/
def descriptionUrl : Url where
  scheme := "http"
  authority := some { host := some (.ipv4 3232235781), port := some 49152 }
  path := .segments ["desc.xml"]

/-- A text that names another host, to which browsers would go. -/
theorem absoluteUrl_sameOrigin_elsewhere :
    let l := located "http://192.168.1.5:49152/desc.xml"
    l.urlBase = "" ∧ parse? l.locationUrl = some descriptionUrl ∧
    (descriptionUrl.scheme = "http" ∨ descriptionUrl.scheme = "https") ∧
    descriptionUrl.host? = some (.ipv4 3232235781) ∧ parse? "//user@host:80/x" = none ∧
    ∃ u, l.absoluteUrl "//user@host:80/x" = .ok u ∧ u.scheme = descriptionUrl.scheme ∧
      u.host? = some (.ipv4 3232235781) ∧ u.port? = descriptionUrl.port? ∧
      u.path = .segments ["user@host:80", "x"] := by
  have hl : parse? "http://192.168.1.5:49152/desc.xml" = some descriptionUrl := by decide +kernel
  have hp : parse? "//user@host:80/x" = none := by decide
  have hpath : readSegments true ('/' :: behindBase "//user@host:80/x") = ["user@host:80", "x"] := by decide +kernel
  refine ⟨rfl, hl, .inl rfl, rfl, hp, ?_⟩
  rw [← hpath]
  exact absoluteUrl_sameOrigin asciiDomain?_keeps rfl hl (.inl rfl) rfl hp

end DeviceLink

end Upnp
