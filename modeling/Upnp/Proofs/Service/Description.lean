import Upnp.Service.Description
import Upnp.Proofs.Description.Root

/-
Descriptions of services are read back. What a description keeps of a service are its version, the
names of its actions, the names, directions and related variables of their arguments, and everything
about its state variables; all of it is there again, in order, when the description is loaded.
-/

namespace Upnp

open Upnp.Text Upnp.Xml

/-! ## Arguments -/

namespace Argument

/-- The argument as a description declares it: without a value, and not an action's yet. -/
def declared (x : Argument) : Argument :=
  { name := x.name, direction := x.direction, relatedVariable := x.relatedVariable }

/-- Name and related variable are plain texts. -/
def IsPlain (x : Argument) : Prop :=
  IsPlainText x.name ∧ IsPlainText x.relatedVariable

instance (x : Argument) : Decidable x.IsPlain :=
  inferInstanceAs (Decidable (_ ∧ _))

theorem isPlainText_direction : ∀ d : Direction, IsPlainText d.text
  | .unknown => by decide
  | .input => by decide
  | .output => by decide

theorem ofText_direction : ∀ d : Direction, Direction.ofText d.text = d
  | .unknown => by decide
  | .input => by decide
  | .output => by decide

/-- The texts of the argument's element. -/
def texts (x : Argument) : List String :=
  [x.name, x.direction.text, x.relatedVariable]

theorem toElement_eq (x : Argument) :
    x.toElement = .ofFields "argument" ["name", "direction", "relatedStateVariable"] x.texts :=
  rfl

variable {x : Argument}

theorem isPlainText_of_mem_texts (h : x.IsPlain) : ∀ t ∈ x.texts, IsPlainText t := by
  simp only [texts, List.forall_mem_cons]
  exact ⟨h.1, isPlainText_direction _, h.2, fun _ ht => absurd ht List.not_mem_nil⟩

theorem legible_toElement (h : x.IsPlain) : Legible x.toElement.toNode := by
  rw [toElement_eq]
  exact Element.legible_ofFields (by decide) (by decide) (isPlainText_of_mem_texts h)

theorem ofElement_toElement (h : x.IsPlain) : ofElement x.toElement = x.declared := by
  have hnames : ["name", "direction", "relatedStateVariable"].Nodup := by decide
  have htexts := Element.map_childText_ofFields "argument" hnames (isPlainText_of_mem_texts h) rfl
  rw [← toElement_eq] at htexts
  simp only [List.map_cons, texts, List.cons.injEq] at htexts
  obtain ⟨hname, hdirection, hrelated, -⟩ := htexts
  unfold ofElement declared
  rw [hname, hdirection, hrelated, ofText_direction]

end Argument

/-! ## Actions -/

namespace Action

/-- The action as a description declares it. -/
def declared (a : Action) : Action :=
  { name := a.name, arguments := a.arguments.map fun x => { x.declared with action := some a.name } }

/-- All names and related variables are plain texts. -/
def IsPlain (a : Action) : Prop :=
  IsPlainText a.name ∧ ∀ x ∈ a.arguments, x.IsPlain

instance (a : Action) : Decidable a.IsPlain :=
  inferInstanceAs (Decidable (_ ∧ _))

theorem foldl_addArgument (a : Action) (xs : List Argument) :
    xs.foldl addArgument a = { a with arguments := a.arguments ++ xs.map a.own } := by
  induction xs generalizing a with
  | nil => simp
  | cons x xs ih =>
    rw [List.foldl_cons, ih]
    simp [addArgument, own]

/-- The name of the action, and names, directions and related variables of its arguments. -/
def outline (a : Action) : String × List (String × Direction × String) :=
  (a.name, a.arguments.map fun x => (x.name, x.direction, x.relatedVariable))

variable {a : Action}

theorem legible_toElement (h : a.IsPlain) : Legible a.toElement.toNode := by
  refine Element.legible_ofElements (by decide) fun e he => ?_
  rcases List.mem_cons.1 he with rfl | he
  · exact Element.legible_ofText (by decide) h.1
  · have harguments : ∀ e ∈ a.arguments.map Argument.toElement, Legible e.toNode :=
      List.forall_mem_map.2 fun x hx => Argument.legible_toElement (h.2 x hx)
    exact Element.legible_of_mem_listOf (by decide) harguments e he

theorem ofElement_toElement (h : a.IsPlain) : ofElement a.toElement = a.declared := by
  have hname : a.toElement.childText "name" = a.name :=
    Element.childText_of_ofText (by simp [toElement, Element.child?_ofElements]) h.1
  have hlist : a.toElement.listed "argumentList" "argument" = a.arguments.map Argument.toElement :=
    Element.listed_of_listOf (by simp [toElement, Element.child?_ofElements]) fun _ => rfl
  have harguments : (a.arguments.map Argument.toElement).map Argument.ofElement =
      a.arguments.map Argument.declared := by
    rw [List.map_map]
    exact List.map_congr_left fun x hx => Argument.ofElement_toElement (h.2 x hx)
  unfold ofElement
  rw [hname, hlist, harguments, foldl_addArgument]
  simp [declared, own]

end Action

/-! ## State variables -/

namespace ValueRange

/-- The fields of the range are plain texts. -/
structure HasPlainTexts (r : ValueRange) : Prop where
  minimum : IsPlainText r.minimum
  maximum : IsPlainText r.maximum
  step : IsPlainText r.step

/-- The range has a field that is not empty, and its fields are plain texts. -/
structure IsPlain (r : ValueRange) : Prop where
  some_field : r.isEmpty = false
  minimum : IsPlainText r.minimum
  maximum : IsPlainText r.maximum
  step : IsPlainText r.step

instance (r : ValueRange) : Decidable r.HasPlainTexts :=
  decidable_of_iff (IsPlainText r.minimum ∧ IsPlainText r.maximum ∧ IsPlainText r.step)
    ⟨fun ⟨h, i, j⟩ => ⟨h, i, j⟩, fun h => ⟨h.1, h.2, h.3⟩⟩

instance (r : ValueRange) : Decidable r.IsPlain :=
  decidable_of_iff (r.isEmpty = false ∧ IsPlainText r.minimum ∧ IsPlainText r.maximum ∧ IsPlainText r.step)
    ⟨fun ⟨h, i, j, k⟩ => ⟨h, i, j, k⟩, fun h => ⟨h.1, h.2, h.3, h.4⟩⟩

variable {r : ValueRange}

theorem IsPlain.hasPlainTexts (h : r.IsPlain) : r.HasPlainTexts :=
  ⟨h.minimum, h.maximum, h.step⟩

theorem legible_toElement (h : r.HasPlainTexts) : Legible r.toElement.toNode := by
  refine Element.legible_ofElements (by decide) fun e he => ?_
  rcases List.mem_append.1 he with he | he
  · simp only [List.mem_cons, List.not_mem_nil, or_false] at he
    rcases he with rfl | rfl
    · exact Element.legible_ofText (by decide) h.minimum
    · exact Element.legible_ofText (by decide) h.maximum
  · exact Element.legible_of_mem_optionalText (by decide) h.step e he

theorem ofElement_toElement (h : r.HasPlainTexts) : ofElement r.toElement = r := by
  have hminimum : r.toElement.childText "minimum" = r.minimum :=
    Element.childText_of_ofText (by simp [toElement, Element.child?_ofElements]) h.minimum
  have hmaximum : r.toElement.childText "maximum" = r.maximum :=
    Element.childText_of_ofText (by simp [toElement, Element.child?_ofElements]) h.maximum
  have hstep : r.toElement.childText "step" = r.step :=
    Element.childText_of_optionalText (by simp [toElement, Element.child?_ofElements]) h.step
  unfold ofElement
  rw [hminimum, hmaximum, hstep]

end ValueRange

namespace StateVariable

/-- The texts of the variable are plain. Allowed values may be empty, and so may the range. -/
structure HasPlainTexts (v : StateVariable) : Prop where
  name : IsPlainText v.name
  dataType : IsPlainText v.dataType
  defaultValue : IsPlainText v.defaultValue
  allowedValues : ∀ x ∈ v.allowedValues, IsPlainText x
  range : ∀ r ∈ v.range, r.HasPlainTexts

/-- The texts of the variable are plain, its allowed values are not empty, and neither is its range. -/
structure IsPlain (v : StateVariable) : Prop where
  name : IsPlainText v.name
  dataType : IsPlainText v.dataType
  defaultValue : IsPlainText v.defaultValue
  allowedValues : ∀ x ∈ v.allowedValues, x ≠ "" ∧ IsPlainText x
  range : ∀ r ∈ v.range, r.IsPlain

instance (v : StateVariable) : Decidable v.HasPlainTexts :=
  decidable_of_iff (IsPlainText v.name ∧ IsPlainText v.dataType ∧ IsPlainText v.defaultValue ∧
      (∀ x ∈ v.allowedValues, IsPlainText x) ∧ ∀ r ∈ v.range, r.HasPlainTexts)
    ⟨fun ⟨h, i, j, k, l⟩ => ⟨h, i, j, k, l⟩, fun h => ⟨h.1, h.2, h.3, h.4, h.5⟩⟩

instance (v : StateVariable) : Decidable v.IsPlain :=
  decidable_of_iff (IsPlainText v.name ∧ IsPlainText v.dataType ∧ IsPlainText v.defaultValue ∧
      (∀ x ∈ v.allowedValues, x ≠ "" ∧ IsPlainText x) ∧ ∀ r ∈ v.range, r.IsPlain)
    ⟨fun ⟨h, i, j, k, l⟩ => ⟨h, i, j, k, l⟩, fun h => ⟨h.1, h.2, h.3, h.4, h.5⟩⟩

/-- What the variable says about the reporting of its changes stands on one line, without tabs. -/
def HasFlatAttributes (v : StateVariable) : Prop :=
  ((v.sendEvents.toList ++ v.multicast.toList).all fun c => !(['\t', '\r', '\n'].contains c)) = true

/-- What the variable says about the reporting of its changes is flat and holds characters of
documents. -/
def HasLegibleAttributes (v : StateVariable) : Prop :=
  v.HasFlatAttributes ∧ (v.sendEvents.toList ++ v.multicast.toList).all isXmlChar = true

instance (v : StateVariable) : Decidable v.HasFlatAttributes :=
  inferInstanceAs (Decidable (_ = true))

instance (v : StateVariable) : Decidable v.HasLegibleAttributes :=
  inferInstanceAs (Decidable (_ ∧ _ = true))

variable {v : StateVariable}

theorem IsPlain.hasPlainTexts (h : v.IsPlain) : v.HasPlainTexts :=
  ⟨h.name, h.dataType, h.defaultValue, fun x hx => (h.allowedValues x hx).2,
    fun r hr => (h.range r hr).hasPlainTexts⟩

theorem HasLegibleAttributes.sendEvents (h : v.HasLegibleAttributes) : v.sendEvents.toList.all isXmlChar = true := by
  obtain ⟨-, hchars⟩ := h
  rw [List.all_append, Bool.and_eq_true] at hchars
  exact hchars.1

theorem HasLegibleAttributes.multicast (h : v.HasLegibleAttributes) : v.multicast.toList.all isXmlChar = true := by
  obtain ⟨-, hchars⟩ := h
  rw [List.all_append, Bool.and_eq_true] at hchars
  exact hchars.2

theorem mem_attributes_toElement {a : String × String} (h : a ∈ v.toElement.attributes) :
    a = ("multicast", v.multicast) ∨ a = ("sendEvents", v.sendEvents) := by
  change a ∈ optionalAttribute _ _ ++ optionalAttribute _ _ at h
  unfold optionalAttribute at h
  rcases List.mem_append.1 h with h | h
  · split at h
    · cases h
    · exact .inl (List.mem_singleton.1 h)
  · split at h
    · cases h
    · exact .inr (List.mem_singleton.1 h)

theorem ne_xmlns_of_mem_attributes {a : String × String} (h : a ∈ v.toElement.attributes) : a.1 ≠ "xmlns" := by
  rcases mem_attributes_toElement h with rfl | rfl
  · exact (by decide : "multicast" ≠ "xmlns")
  · exact (by decide : "sendEvents" ≠ "xmlns")

theorem legibleAttributes_toElement (h : v.HasLegibleAttributes) : LegibleAttributes v.toElement.attributes := by
  constructor
  · intro a ha
    rcases mem_attributes_toElement ha with rfl | rfl
    · exact (by decide : IsUnqualified "multicast")
    · exact (by decide : IsUnqualified "sendEvents")
  · intro a ha
    rcases mem_attributes_toElement ha with rfl | rfl
    · exact h.multicast
    · exact h.sendEvents
  · change ((optionalAttribute _ _ ++ optionalAttribute _ _).map Prod.fst).Nodup
    unfold optionalAttribute
    by_cases hm : v.multicast = "" <;> by_cases hs : v.sendEvents = "" <;> simp [hm, hs]
  · intro a ha hx
    exact absurd hx (ne_xmlns_of_mem_attributes ha)

theorem attribute?_toElement (v : StateVariable) : (v.toElement.attribute? "sendEvents").getD "" = v.sendEvents ∧
    (v.toElement.attribute? "multicast").getD "" = v.multicast := by
  change ((optionalAttribute _ _ ++ optionalAttribute _ _).lookup "sendEvents").getD "" = _ ∧
    ((optionalAttribute _ _ ++ optionalAttribute _ _).lookup "multicast").getD "" = _
  unfold optionalAttribute
  by_cases hm : v.multicast = "" <;> by_cases hs : v.sendEvents = "" <;> simp [hm, hs, List.lookup_cons]

/-! ### Elements -/

/-- The element of the range, if one is written. -/
def rangeElements (v : StateVariable) : List Element :=
  match v.range with
  | some r => if r.isEmpty then [] else [r.toElement]
  | none => []

theorem rangeElements_eq (h : v.IsPlain) : v.rangeElements = (v.range.map ValueRange.toElement).toList := by
  unfold rangeElements
  cases hr : v.range with
  | none => rfl
  | some r =>
    have hsome := (h.range r hr).some_field
    simp [hsome]

theorem mem_rangeElements {e : Element} (h : e ∈ v.rangeElements) : ∃ r ∈ v.range, e = r.toElement := by
  unfold rangeElements at h
  split at h
  · rename_i r hr
    split at h
    · cases h
    · exact ⟨r, hr, List.mem_singleton.1 h⟩
  · cases h

@[simp] theorem find?_rangeElements (v : StateVariable) (name : String) :
    v.rangeElements.find? (·.name == name) =
      if "allowedValueRange" = name then v.rangeElements.head? else none := by
  have hname : ∀ e ∈ v.rangeElements, e.name = "allowedValueRange" := by
    intro e he
    obtain ⟨r, -, rfl⟩ := mem_rangeElements he
    rfl
  rw [← List.head?_filter]
  split
  · rw [List.filter_eq_self.2 (by simp_all)]
  · rw [List.filter_eq_nil_iff.2 (by simp_all)]
    rfl

theorem child?_toElement (v : StateVariable) (name : String) : v.toElement.child? name =
    ([Element.ofText "name" v.name, Element.ofText "dataType" v.dataType] ++
      Element.optionalText "defaultValue" v.defaultValue ++
      Element.listOf "allowedValueList" (v.allowedValues.map (Element.ofText "allowedValue")) ++
      v.rangeElements).find? (·.name == name) :=
  Element.child?_ofElements "stateVariable" name _

theorem legible_toElement (h : v.HasPlainTexts) (ha : v.HasLegibleAttributes) : Legible v.toElement.toNode := by
  have hvalues : ∀ e ∈ v.allowedValues.map (Element.ofText "allowedValue"), Legible e.toNode :=
    List.forall_mem_map.2 fun x hx => Element.legible_ofText (by decide) (h.allowedValues x hx)
  refine .ofElements (by decide : IsUnqualified "stateVariable") (legibleAttributes_toElement ha)
    (fun a hm => ne_xmlns_of_mem_attributes hm) fun c hc => ?_
  obtain ⟨e, he, rfl⟩ := List.mem_map.1 hc
  change e ∈ _ ++ v.rangeElements at he
  simp only [List.mem_append, List.mem_cons, List.not_mem_nil, or_false] at he
  rcases he with (((rfl | rfl) | he) | he) | he
  · exact Element.legible_ofText (by decide) h.name
  · exact Element.legible_ofText (by decide) h.dataType
  · exact Element.legible_of_mem_optionalText (by decide) h.defaultValue e he
  · exact Element.legible_of_mem_listOf (by decide) hvalues e he
  · obtain ⟨r, hr, rfl⟩ := mem_rangeElements he
    exact ValueRange.legible_toElement (h.range r hr)

theorem texts_ofText {xs : List String} (h : ∀ x ∈ xs, trim x = x) :
    ((xs.map (Element.ofText "allowedValue")).filterMap Element.text?).map trim = xs.filter (· ≠ "") := by
  induction xs with
  | nil => rfl
  | cons x xs ih =>
    obtain ⟨htrim, hrest⟩ := List.forall_mem_cons.1 h
    rw [List.map_cons, List.filterMap_cons, Element.text?_ofText]
    by_cases hx : x = ""
    · rw [if_pos hx, List.filter_cons_of_neg (by simp [hx])]
      exact ih hrest
    · rw [if_neg hx, List.filter_cons_of_pos (by simp [hx]), List.map_cons, htrim, ih hrest]

theorem listed_allowedValues (v : StateVariable) : v.toElement.listed "allowedValueList" "allowedValue" =
    v.allowedValues.map (Element.ofText "allowedValue") :=
  Element.listed_of_listOf (by simp [child?_toElement]) fun _ => rfl

/-- What a variable allows is read back but for the empty values. -/
theorem allowedValues_ofElement (h : ∀ x ∈ v.allowedValues, IsPlainText x) :
    (ofElement v.toElement).allowedValues = v.allowedValues.filter (· ≠ "") := by
  unfold ofElement
  rw [listed_allowedValues, texts_ofText fun x hx => (h x hx).trimmed]

theorem ofElement_toElement (h : v.IsPlain) : ofElement v.toElement = v := by
  have hname : v.toElement.childText "name" = v.name :=
    Element.childText_of_ofText (by simp [child?_toElement]) h.name
  have hdataType : v.toElement.childText "dataType" = v.dataType :=
    Element.childText_of_ofText (by simp [child?_toElement]) h.dataType
  have hdefault : v.toElement.childText "defaultValue" = v.defaultValue :=
    Element.childText_of_optionalText (by simp [child?_toElement]) h.defaultValue
  have hfull : v.allowedValues.filter (· ≠ "") = v.allowedValues :=
    List.filter_eq_self.2 fun x hx => decide_eq_true (h.allowedValues x hx).1
  have hallowed : ((v.toElement.listed "allowedValueList" "allowedValue").filterMap Element.text?).map trim =
      v.allowedValues := (allowedValues_ofElement h.hasPlainTexts.allowedValues).trans hfull
  have hrange : (v.toElement.child? "allowedValueRange").map ValueRange.ofElement = v.range := by
    have hchild : v.toElement.child? "allowedValueRange" = v.rangeElements.head? := by
      simp [child?_toElement]
    rw [hchild, rangeElements_eq h]
    cases hr : v.range with
    | none => rfl
    | some r => exact congrArg some (ValueRange.ofElement_toElement (h.range r hr).hasPlainTexts)
  obtain ⟨hevents, hmulticast⟩ := attribute?_toElement v
  unfold ofElement
  rw [hname, hdataType, hdefault, hallowed, hrange, hevents, hmulticast]

end StateVariable

/-! ## Services -/

namespace Service

/-- The actions and state variables of the service hold plain texts. -/
structure IsPlain (s : Service) : Prop where
  actions : ∀ a ∈ s.actions, a.IsPlain
  stateVariables : ∀ v ∈ s.stateVariables, v.IsPlain

/-- The actions and state variables of the service hold plain texts. Values that are allowed may be
empty. -/
structure HasPlainTexts (s : Service) : Prop where
  actions : ∀ a ∈ s.actions, a.IsPlain
  stateVariables : ∀ v ∈ s.stateVariables, v.HasPlainTexts

variable {s : Service}

theorem IsPlain.hasPlainTexts (h : s.IsPlain) : s.HasPlainTexts :=
  ⟨h.actions, fun v hv => (h.stateVariables v hv).hasPlainTexts⟩

/-- What stands in the root of the description. -/
def contents (s : Service) : List Element := [
  s.version.toElement,
  .ofElements "actionList" (s.actions.map Action.toElement),
  .ofElements "serviceStateTable" (s.stateVariables.map StateVariable.toElement)]

theorem readDocument_description (h : s.HasPlainTexts) (ha : ∀ v ∈ s.stateVariables, v.HasLegibleAttributes) :
    readDocument "scpd" s.description = .ok (.ofElements "scpd" s.contents) := by
  have hactions : ∀ e ∈ s.actions.map Action.toElement, Legible e.toNode :=
    List.forall_mem_map.2 fun a ham => Action.legible_toElement (h.actions a ham)
  have hvariables : ∀ e ∈ s.stateVariables.map StateVariable.toElement, Legible e.toNode :=
    List.forall_mem_map.2 fun v hv => StateVariable.legible_toElement (h.stateVariables v hv) (ha v hv)
  refine readDocument_write (by decide) ⟨by decide, by decide, by decide, by decide⟩ fun e he => ?_
  simp only [List.mem_cons, List.not_mem_nil, or_false] at he
  rcases he with rfl | rfl | rfl
  · exact SpecVersion.legible_toElement _
  · exact Element.legible_ofElements (by decide) hactions
  · exact Element.legible_ofElements (by decide) hvariables

theorem version_contents (hv : s.version.InRange) :
    SpecVersion.ofRoot (.ofElements "scpd" s.contents) = s.version := by
  refine SpecVersion.ofRoot_of_child? ?_ hv
  simp [Element.child?_ofElements, contents, SpecVersion.toElement]

theorem actions_contents (h : s.IsPlain) :
    ((Element.ofElements "scpd" s.contents).listed "actionList" "action").map Action.ofElement =
      s.actions.map Action.declared := by
  have hlist : (Element.ofElements "scpd" s.contents).listed "actionList" "action" =
      s.actions.map Action.toElement := by
    refine Element.listed_of_ofElements ?_ fun _ => rfl
    simp [Element.child?_ofElements, contents, SpecVersion.toElement]
  rw [hlist, List.map_map]
  exact List.map_congr_left fun a ha => Action.ofElement_toElement (h.actions a ha)

theorem listed_stateVariables (s : Service) :
    (Element.ofElements "scpd" s.contents).listed "serviceStateTable" "stateVariable" =
      s.stateVariables.map StateVariable.toElement := by
  refine Element.listed_of_ofElements ?_ fun _ => rfl
  simp [Element.child?_ofElements, contents, SpecVersion.toElement]

theorem stateVariables_contents (h : s.IsPlain) :
    ((Element.ofElements "scpd" s.contents).listed "serviceStateTable" "stateVariable").map StateVariable.ofElement =
      s.stateVariables := by
  rw [listed_stateVariables, List.map_map]
  calc s.stateVariables.map (StateVariable.ofElement ∘ StateVariable.toElement)
      = s.stateVariables.map id :=
        List.map_congr_left fun v hv => StateVariable.ofElement_toElement (h.stateVariables v hv)
    _ = s.stateVariables := List.map_id _

/-- What a service is once it has loaded the description of another one. -/
def describedAs (t s : Service) : Service :=
  relink { t with
    version := s.version
    actions := s.actions.map Action.declared
    stateVariables := s.stateVariables
    hasDescription := true }

/-- Loading a description makes a service the described one, whatever it was. -/
theorem load_description_eq (h : s.IsPlain) (ha : ∀ v ∈ s.stateVariables, v.HasLegibleAttributes)
    (hv : s.version.InRange) (t : Service) : t.load s.description = .ok (t.describedAs s) := by
  unfold load
  rw [readDocument_description h.hasPlainTexts ha]
  show Except.ok (t.describe (.ofElements "scpd" s.contents)) = _
  unfold describe describedAs
  rw [version_contents hv, actions_contents h, stateVariables_contents h]

theorem outlines_describedAs (t s : Service) :
    (t.describedAs s).actions.map Action.outline = s.actions.map Action.outline := by
  show ((s.actions.map Action.declared).map _).map Action.outline = _
  rw [List.map_map, List.map_map]
  refine List.map_congr_left fun a _ => ?_
  simp [Action.outline, Action.attach, Action.declared, Action.own, Argument.declared]

/-- A loaded description gives the version, the actions with their arguments and the state variables
of the service that it describes, each in order. -/
theorem load_description (h : s.IsPlain) (ha : ∀ v ∈ s.stateVariables, v.HasLegibleAttributes)
    (hv : s.version.InRange) (t : Service) :
    ∃ r, t.load s.description = .ok r ∧ r.version = s.version ∧
      r.actions.map Action.outline = s.actions.map Action.outline ∧ r.stateVariables = s.stateVariables :=
  ⟨t.describedAs s, load_description_eq h ha hv t, rfl, outlines_describedAs t s, rfl⟩

/-- A dimmer with markup in a name and in an allowed value, an argument of unknown direction and a
range without step. -/
def dimming (multicast : String) : Service :=
  let fresh : Service := { serviceType := "urn:schemas-upnp-org:service:Dimming:1", serviceId := "Dimming.1" }
  ((fresh.addAction { name := "Set", arguments := [
      { name := "Level", direction := .input, relatedVariable := "Level" }, { name := "<old> & new" }] }).addVariable
    { name := "Level", dataType := "ui1", range := some ⟨"0", "100", ""⟩, sendEvents := "yes", multicast }).addVariable
    { name := "Mode", dataType := "string", defaultValue := "a > b", allowedValues := ["a > b", "\"é\""] }

theorem load_description_dimming :
    (dimming "'no' & \"yes\"").IsPlain ∧
    (∀ v ∈ (dimming "'no' & \"yes\"").stateVariables, v.HasLegibleAttributes) ∧
    (dimming "'no' & \"yes\"").version.InRange ∧
    ∃ r, ({ serviceType := "", serviceId := "" } : Service).load (dimming "'no' & \"yes\"").description = .ok r ∧
      r.version = {} ∧
      r.actions.map Action.outline = [("Set", [("Level", .input, "Level"), ("<old> & new", .unknown, "")])] ∧
      r.stateVariables = (dimming "'no' & \"yes\"").stateVariables := by
  have hplain : (dimming "'no' & \"yes\"").IsPlain := ⟨by decide, by decide⟩
  have hattributes : ∀ v ∈ (dimming "'no' & \"yes\"").stateVariables, v.HasLegibleAttributes := by decide
  have hversion : (dimming "'no' & \"yes\"").version.InRange := by decide
  exact ⟨hplain, hattributes, hversion, load_description hplain hattributes hversion _⟩

theorem load_of_read?_eq_none {text : String} (h : Xml.read? text = none) (t : Service) :
    t.load text = .error .malformed := by
  unfold load readDocument
  rw [h]
  rfl

/-- A character of no document in an attribute leaves a description that nothing loads. -/
theorem load_description_controlCharacter :
    (dimming "\u0001").IsPlain ∧ (∀ v ∈ (dimming "\u0001").stateVariables, v.HasFlatAttributes) ∧
    (dimming "\u0001").version.InRange ∧
    ∀ t : Service, t.load (dimming "\u0001").description = .error .malformed := by
  have hread : (readAll? (writeChars (dimming "\u0001").toElement)).isNone = true := by decide +kernel
  have hnone : Xml.read? (dimming "\u0001").description = none := by
    unfold Xml.read? description write
    rw [String.toList_ofList, Option.isNone_iff_eq_none.1 hread]
    rfl
  exact ⟨⟨by decide, by decide⟩, by decide, by decide, load_of_read?_eq_none hnone⟩

end Service

end Upnp
