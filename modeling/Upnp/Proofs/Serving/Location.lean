import Upnp.Serving.Responder
import Upnp.Proofs.Decimal.Integer
import Upnp.Proofs.Markup.Written
import Upnp.Proofs.Url.Base

/-
Asking for the description at the announced location. The location is a URL, whose path is in normal
form, while requests are compared with the path text that the device was given; a device therefore
answers at its own location just when that text is in normal form itself.
-/

namespace Upnp

open Upnp.Xml

/-! ## Descriptions -/

theorem write_of_element (name : String) (attributes : List (String × String)) (children : List Node) (depth : Nat) :
    ∃ rest, (Node.element name attributes children).write depth = '<' :: (name.toList ++ rest) := by
  rw [Markup.write_element]
  split
  · exact ⟨writeAttributes attributes ++ " />".toList, by simp only [List.append_assoc, List.cons_append]⟩
  · simp only [List.append_assoc, List.cons_append]
    exact ⟨_, rfl⟩

/-- Documents whose roots have different names are different. -/
theorem name_of_write_eq {a b : Element} (h : Xml.write a = Xml.write b) :
    ∃ r s, a.name.toList ++ r = b.name.toList ++ s := by
  obtain ⟨r, hr⟩ := write_of_element a.name a.attributes a.children 0
  obtain ⟨s, hs⟩ := write_of_element b.name b.attributes b.children 0
  have hchars : writeChars a = writeChars b := by
    have h' := congrArg String.toList h
    unfold Xml.write at h'
    rwa [String.toList_ofList, String.toList_ofList] at h'
  unfold writeChars Element.toNode at hchars
  rw [hr, hs] at hchars
  exact ⟨r, s, (List.cons.inj (List.append_cancel_left hchars)).2⟩

/-- No service has the description of a device. -/
theorem Service.description_ne (s : Service) (d : Device) : s.description ≠ d.description := by
  intro h
  obtain ⟨r, t, he⟩ := name_of_write_eq h
  change "scpd".toList ++ r = "root".toList ++ t at he
  have hhead : some 's' = some 'r' := congrArg List.head? he
  exact absurd hhead (by decide)

namespace Responder

variable {r : Responder}

/-- Only the path text of the device leads to its description. -/
theorem descriptionAt?_eq_description_iff (path : String) :
    r.descriptionAt? path = some r.device.description ↔ path = r.device.node.descriptionUrl := by
  unfold descriptionAt?
  constructor
  · intro h
    split at h
    · assumption
    · obtain ⟨s, -, hs⟩ := Option.map_eq_some_iff.1 h
      exact absurd hs (Service.description_ne s r.device)
  · rintro rfl
    exact if_pos rfl

theorem dispatch_get_eq_reply_iff (hasListener : Bool) (path : String) (headers : List (String × Text.Utf8.Octets))
    (body : Text.Utf8.Octets) :
    r.dispatch hasListener ⟨"GET", path, headers, body⟩ = .reply (r.xmlResponse 200 r.device.description) ↔
      path = r.device.node.descriptionUrl := by
  rw [← descriptionAt?_eq_description_iff]
  unfold dispatch
  simp only
  cases hd : r.descriptionAt? path with
  | none => simp
  | some text =>
    simp only [Dispatch.reply.injEq, Option.some.injEq]
    constructor
    · intro h
      exact congrArg Http.Response.body h
    · rintro rfl
      rfl

/-- The device answers a request for the path of its location with its description if and only if the
path text that it was given for the description is in normal form. -/
theorem dispatch_location {n : Nat} {u : Url} (hp : Url.parse? r.device.node.descriptionUrl = none)
    (hu : r.device.locationUrlFor (Url.writeIpv4 n) r.port = .ok u) (hasListener : Bool)
    (headers : List (String × Text.Utf8.Octets)) (body : Text.Utf8.Octets) :
    r.dispatch hasListener ⟨"GET", u.path.text, headers, body⟩ = .reply (r.xmlResponse 200 r.device.description) ↔
      Url.IsNormalPath r.device.node.descriptionUrl := by
  have hlocated : Url.absolute ("http://" ++ Url.writeIpv4 n ++ ":" ++ Decimal.showInt r.port)
      r.device.node.descriptionUrl = .ok u := by
    unfold Device.locationUrlFor at hu
    cases ha : Url.absolute ("http://" ++ Url.writeIpv4 n ++ ":" ++ Decimal.showInt r.port)
      r.device.node.descriptionUrl with
    | error e =>
      rw [ha] at hu
      cases hu
    | ok v =>
      rw [ha] at hu
      cases hu
      rfl
  have hpath := Url.path_of_absolute (Url.isHostText_writeIpv4 n) Decimal.isDigit_of_mem_showInt hp hlocated
  rw [dispatch_get_eq_reply_iff, hpath]
  exact Url.text_behindBase_iff _

/-- A lamp whose description is at a path. -/
def lampAt (path : String) : Responder where
  device := (Device.named "urn:lamp" "Lamp").setDescriptionUrl path
  server := "OS/1 UPnP/1.1"
  port := 6100

/-- The URL of a file on the server at 192.168.1.5. -/
def fileUrl (name : String) : Url where
  scheme := "http"
  authority := some { host := some (.ipv4 3232235781), port := some 6100 }
  path := .segments [name]

/-- A path in normal form is answered, percent signs and all. -/
theorem dispatch_location_lamp :
    Url.parse? (lampAt "/%7edescription.xml").device.node.descriptionUrl = none ∧
    (lampAt "/%7edescription.xml").device.locationUrlFor (Url.writeIpv4 3232235781) 6100 =
      .ok (fileUrl "%7edescription.xml") ∧
    Url.IsNormalPath "/%7edescription.xml" ∧
    (lampAt "/%7edescription.xml").dispatch false ⟨"GET", (fileUrl "%7edescription.xml").path.text, [], []⟩ =
      .reply ((lampAt "/%7edescription.xml").xmlResponse 200 (lampAt "/%7edescription.xml").device.description) := by
  have hp : Url.parse? (lampAt "/%7edescription.xml").device.node.descriptionUrl = none := by decide
  have hu : (lampAt "/%7edescription.xml").device.locationUrlFor (Url.writeIpv4 3232235781) 6100 =
      .ok (fileUrl "%7edescription.xml") := by decide +kernel
  have hnormal : Url.IsNormalPath "/%7edescription.xml" :=
    ⟨"%7edescription.xml".toList, by decide, by decide, by decide, by decide⟩
  exact ⟨hp, hu, hnormal, (dispatch_location hp hu false [] []).2 hnormal⟩

/-- A path text without the slash in front is announced with one, and nothing answers there. -/
theorem location_not_served :
    Url.parse? (lampAt "desc.xml").device.node.descriptionUrl = none ∧
    (lampAt "desc.xml").device.locationUrlFor (Url.writeIpv4 3232235781) 6100 = .ok (fileUrl "desc.xml") ∧
    (fileUrl "desc.xml").path.text = "/desc.xml" ∧
    ∀ hasListener headers body, (lampAt "desc.xml").dispatch hasListener
      ⟨"GET", (fileUrl "desc.xml").path.text, headers, body⟩ = .foreign := by
  refine ⟨by decide, by decide +kernel, by decide, fun hasListener headers body => ?_⟩
  have hnone : (lampAt "desc.xml").descriptionAt? (fileUrl "desc.xml").path.text = none := by decide
  unfold dispatch
  simp only [hnone]

end Responder

end Upnp
