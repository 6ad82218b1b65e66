import Upnp.Proofs.Service.Description

/-
What a state variable allows, after its description is read again. An empty value is written as an
element without text, and an element without text is passed over when the list is read, so that the
empty values of a list are lost and the others are found in their order.
-/

namespace Upnp

open Upnp.Text Upnp.Xml

namespace Service

variable {s : Service}

/-- The variables of a loaded description are those that their elements are read as. -/
theorem load_description_stateVariables (h : s.HasPlainTexts)
    (ha : ∀ v ∈ s.stateVariables, v.HasLegibleAttributes) (t : Service) :
    ∃ r, t.load s.description = .ok r ∧
      r.stateVariables = s.stateVariables.map fun v => .ofElement v.toElement := by
  refine ⟨t.describe (.ofElements "scpd" s.contents), ?_, ?_⟩
  · unfold load
    rw [readDocument_description h ha]
    rfl
  · show ((Element.ofElements "scpd" s.contents).listed _ _).map StateVariable.ofElement = _
    rw [listed_stateVariables, List.map_map]
    rfl

end Service

namespace StateVariable

variable {v : StateVariable}

/-- The allowed values that are not empty are read back in their order, and the empty ones are not:
the list comes back as it was just if it holds no empty text. The same variable is in the loaded
description of every service that declares it, at its place. -/
theorem allowedValues_reloaded (h : ∀ x ∈ v.allowedValues, IsPlainText x) :
    (ofElement v.toElement).allowedValues = v.allowedValues.filter (· ≠ "") ∧
    ((ofElement v.toElement).allowedValues = v.allowedValues ↔ "" ∉ v.allowedValues) ∧
    ∀ (s t : Service) (i : Nat), s.HasPlainTexts → (∀ u ∈ s.stateVariables, u.HasLegibleAttributes) →
      s.stateVariables[i]? = some v →
      ∃ r, t.load s.description = .ok r ∧ r.stateVariables[i]? = some (ofElement v.toElement) := by
  refine ⟨allowedValues_ofElement h, ?_, ?_⟩
  · rw [allowedValues_ofElement h, List.filter_eq_self]
    constructor
    · intro hall hempty
      exact absurd (hall "" hempty) (by decide)
    · intro hempty x hx
      exact decide_eq_true fun he => hempty (he ▸ hx)
  · intro s t i hs hattributes hi
    obtain ⟨r, hload, hvariables⟩ := Service.load_description_stateVariables hs hattributes t
    exact ⟨r, hload, by rw [hvariables, List.getElem?_map, hi, Option.map_some]⟩

/-- A mode that may be empty, twice, and may hold markup. Its range is empty. -/
def openMode : StateVariable :=
  { name := "Mode", dataType := "string", allowedValues := ["", "a > b", "", "<c>"], range := some ⟨"", "", ""⟩ }

/-- A service with this mode alone. -/
def modeService : Service :=
  ({ serviceType := "urn:schemas-upnp-org:service:Dimming:1", serviceId := "Dimming.1" } : Service).addVariable openMode

theorem allowedValues_reloaded_openMode :
    (∀ x ∈ openMode.allowedValues, IsPlainText x) ∧ modeService.HasPlainTexts ∧
    (∀ u ∈ modeService.stateVariables, u.HasLegibleAttributes) ∧
    (ofElement openMode.toElement).allowedValues = ["a > b", "<c>"] ∧
    ∃ r, ({ serviceType := "", serviceId := "" } : Service).load modeService.description = .ok r ∧
      r.stateVariables[0]? = some (ofElement openMode.toElement) := by
  have hplain : ∀ x ∈ openMode.allowedValues, IsPlainText x := by decide
  have htexts : modeService.HasPlainTexts := ⟨by decide, by decide⟩
  have hattributes : ∀ u ∈ modeService.stateVariables, u.HasLegibleAttributes := by decide
  obtain ⟨hvalues, -, hloaded⟩ := allowedValues_reloaded hplain
  exact ⟨hplain, htexts, hattributes, hvalues, hloaded _ _ 0 htexts hattributes rfl⟩

/-- A transport that may be without a state or stopped is read as one that has to be stopped. -/
theorem emptyValue_not_reloaded :
    let v : StateVariable := { name := "TransportState", dataType := "string", allowedValues := ["", "STOPPED"] }
    (∀ x ∈ v.allowedValues, IsPlainText x) ∧ (ofElement v.toElement).allowedValues = ["STOPPED"] ∧
      (ofElement v.toElement).allowedValues ≠ v.allowedValues := by
  decide

end StateVariable

end Upnp
