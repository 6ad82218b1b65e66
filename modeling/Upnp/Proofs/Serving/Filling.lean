import Upnp.Proofs.Action.Copying
import Upnp.Proofs.Serving.Dispatch

/-
What a request fills in. The values of a request go by their names alone, to arguments of any direction: an
output of the device is overwritten as an input is, and an application that sets no output answers with
what the client has sent for it. The arguments that are no inputs keep their values if and only if the
request supplies no other value for any of them.
-/

namespace Upnp

open Upnp.Text

namespace Action

/-! ## Values that are supplied -/

/-- Of the values that a message lists, this one goes to this argument, the first of its name. -/
def Supplied (values : List (String × String)) (a : Action) (x : Argument) (v : String) : Prop :=
  a.argument x.name = .ok x ∧ LastListed values x.name v

/-- Every argument that is no input has the value that it had. -/
def OnlyInputsChange (a b : Action) : Prop :=
  ∀ (i : Nat) (x y : Argument), a.arguments[i]? = some x → b.arguments[i]? = some y → x.direction ≠ .input →
    y.value = x.value

variable {values : List (String × String)} {a b : Action}

/-- The argument of a name is the one before which no other has the name. -/
theorem argument_eq_ok_iff {x : Argument} : a.argument x.name = .ok x ↔
    ∃ i, a.arguments[i]? = some x ∧ x.name ∉ (a.arguments.take i).map (·.name) := by
  have hnot : ∀ ys : List Argument, x.name ∉ ys.map (·.name) ↔ ∀ y ∈ ys, (!(y.name == x.name)) = true := by
    simp
  rw [argument_eq_ok_iff_find?, List.find?_eq_some_iff_append, and_iff_right (beq_self_eq_true x.name)]
  constructor
  · rintro ⟨before, after, hsplit, hbefore⟩
    refine ⟨before.length, ?_, ?_⟩
    · rw [hsplit, List.getElem?_append_right (Nat.le_refl _), Nat.sub_self, List.getElem?_cons_zero]
    · rw [hsplit, List.take_left, hnot]
      exact hbefore
  · rintro ⟨i, hi, hfirst⟩
    obtain ⟨hlt, rfl⟩ := List.getElem?_eq_some_iff.1 hi
    refine ⟨a.arguments.take i, a.arguments.drop (i + 1), ?_, (hnot _).1 hfirst⟩
    rw [List.getElem_cons_drop, List.take_append_drop]

theorem CopiedByName.exists_copied (h : CopiedByName values a b) {i : Nat} {x : Argument}
    (hx : a.arguments[i]? = some x) :
    ∃ y, b.arguments[i]? = some y ∧ Copied ((a.arguments.take i).map (·.name)) values x y := by
  have hi : i < b.arguments.length := h.length ▸ (List.getElem?_eq_some_iff.1 hx).1
  have hy := List.getElem?_eq_getElem hi
  exact ⟨_, hy, h.arguments i x _ hx hy⟩

theorem CopiedByName.sameBesidesValues (h : CopiedByName values a b) : a.SameBesidesValues b := by
  refine ⟨h.name.symm, h.service.symm, List.ext_getElem? fun i => ?_⟩
  rw [List.getElem?_map, List.getElem?_map]
  cases hx : a.arguments[i]? with
  | none =>
    rw [List.getElem?_eq_none_iff, ← h.length, ← List.getElem?_eq_none_iff] at hx
    rw [hx]
  | some x =>
    obtain ⟨y, hy, hcopied⟩ := h.exists_copied hx
    rw [hy, Option.map_some, Option.map_some]
    cases hcopied <;> rfl

/-- Which values change is told by the values that are supplied, for arguments of any kind. -/
theorem CopiedByName.values_iff (h : CopiedByName values a b) (p : Direction → Prop) :
    (∀ (i : Nat) (x y : Argument), a.arguments[i]? = some x → b.arguments[i]? = some y → p x.direction →
      y.value = x.value) ↔ ∀ x v, Supplied values a x v → p x.direction → v = x.value := by
  constructor
  · rintro hkept x v ⟨hfirst, hlast⟩ hp
    obtain ⟨i, hx, hearlier⟩ := argument_eq_ok_iff.1 hfirst
    obtain ⟨y, hy, hcopied⟩ := h.exists_copied hx
    have hvalue := hkept i x y hx hy hp
    rwa [copied_iff.1 hcopied, if_neg hearlier, given_of_lastListed hlast] at hvalue
  · intro hsame i x y hx hy hp
    cases h.arguments i x y hx hy with
    | filled first hlast => exact hsame x _ ⟨argument_eq_ok_iff.2 ⟨i, hx, first⟩, hlast⟩ hp
    | unlisted => rfl
    | later => rfl

theorem valuesOf_eq_iff (d : Direction) : ∀ {xs ys : List Argument}, xs.map signature = ys.map signature →
    (valuesOf d ys = valuesOf d xs ↔ ∀ (i : Nat) (x y : Argument), xs[i]? = some x → ys[i]? = some y →
      x.direction = d → y.value = x.value)
  | [], [], _ => by simp
  | x :: xs, y :: ys, h => by
    rw [List.map_cons, List.map_cons, List.cons.injEq] at h
    obtain ⟨hname, hdir⟩ := Prod.mk.inj h.1
    have ih := valuesOf_eq_iff d h.2
    have hsplit : (∀ (i : Nat) (x' y' : Argument), (x :: xs)[i]? = some x' → (y :: ys)[i]? = some y' →
        x'.direction = d → y'.value = x'.value) ↔
        (x.direction = d → y.value = x.value) ∧ valuesOf d ys = valuesOf d xs := by
      rw [ih]
      constructor
      · exact fun hall => ⟨hall 0 x y rfl rfl, fun i => hall (i + 1)⟩
      · rintro ⟨hhead, htail⟩ (_ | i) x' y' hx hy
        · cases hx
          cases hy
          exact hhead
        · exact htail i x' y' hx hy
    rw [hsplit]
    by_cases hd : x.direction = d
    · rw [valuesOf_cons_of_eq hd, valuesOf_cons_of_eq (hdir ▸ hd), List.cons.injEq, Prod.mk.injEq,
        and_iff_right hname.symm, forall_prop_of_true hd]
    · rw [valuesOf_cons_of_ne hd, valuesOf_cons_of_ne (hdir ▸ hd), forall_prop_of_false hd, true_and]

end Action

namespace Responder

/-! ## Requests -/

/-- The listener sets no output. -/
def SetsNoOutput {σ : Type} (listener : ActionListener σ) : Prop :=
  ∀ a state b, (listener a state).1 = .ok b →
    b.name = a.name ∧ b.service = a.service ∧ b.valuesIn .output = a.valuesIn .output

/-- What a request is for is told without its message. -/
theorem Target.withBody {r : Responder} {request : Http.Request} {s : Service} {a : Action}
    (h : r.Target request s a) (body : Utf8.Octets) : r.Target { request with body } s a :=
  ⟨h.method, h.service, h.described, h.action⟩

/-- A request for an action is taken whatever it lists. It leaves the arguments alone that are no inputs just
if the values that it supplies for them are those they have; and if the application then sets no output, the
answer carries the outputs of the action just if none of them was supplied another value. -/
theorem applyRequest_fills (a : Action) (call : Soap.Call) (h : call.name = a.name) :
    ∃ filled, a.applyRequest call = .ok filled ∧
      (a.OnlyInputsChange filled ↔
        ∀ x v, a.Supplied call.arguments x v → x.direction ≠ .input → v = x.value) ∧
      (filled.valuesIn .output = a.valuesIn .output ↔
        ∀ x v, a.Supplied call.arguments x v → x.direction = .output → v = x.value) ∧
      ∀ (r : Responder) (request : Http.Request) (s : Service) (l : ServiceLink), r.Target request s a →
        a.service = some l → Soap.decodeRequest request.body = .ok call →
        ∀ {σ : Type} (listener : ActionListener σ), SetsNoOutput listener →
        ∀ (hook : Option Hook) (state : σ) (b : Action), (listener filled state).1 = .ok b →
          (r.handle (some listener) hook request state).1 =
            r.xmlResponse 200 (Soap.encodeResponse l.serviceType a.name (filled.valuesIn .output)) := by
  have hcopied := Action.copiedByName_iff.2 (rfl : _ = { a with arguments := Action.assign a.arguments call.arguments })
  refine ⟨_, applyRequest_of_name h, ?_, ?_, ?_⟩
  · exact hcopied.values_iff (· ≠ .input)
  · have hshape := hcopied.sameBesidesValues.shape
    rw [Action.valuesIn_eq, Action.valuesIn_eq, Action.valuesOf_eq_iff .output hshape.arguments]
    exact hcopied.values_iff (· = .output)
  · intro r request s l ht hl hbody σ listener hsets hook state b hb
    have hran : r.Handled (some listener) hook request state _ _ _ :=
      .ran ht rfl hbody h (applyRequest_of_name h) (completes_iff.2 rfl)
    rw [handle_eq_handleNoting, hran.handleNoting_eq]
    obtain ⟨hname, hservice, houtput⟩ := hsets _ _ _ hb
    have hdone : r.Completes (.ok b) _ := .done (hservice.trans hl)
    rw [hb, completes_iff.1 hdone, hname, houtput]

/-! ## Requests to a lamp -/

/-- The control request for the lamp's action that lists these values. -/
def settingRequest (values : List (String × String)) : Http.Request :=
  { controlRequest "Set" with body := Utf8.encode (Soap.encodeRequest "urn:x:switch:1" "Set" values) }

theorem target_settingRequest (values : List (String × String)) :
    (lampWith "Set").Target (settingRequest values) (switchOf "Set") (actionOf "Set") :=
  target_controlRequest_set.withBody _

theorem decodeRequest_settingRequest {values : List (String × String)}
    (h : ∀ p ∈ values, Soap.isLocalName p.1.toList = true) :
    Soap.decodeRequest (settingRequest values).body = .ok ⟨"Set", some "urn:x:switch:1", values⟩ := by
  rw [settingRequest, Soap.decodeRequest_encodeRequest (by decide) "urn:x:switch:1" h]

/-- An application that lets every action pass. -/
def passing : ActionListener Nat := fun a n =>
  (.ok a, n)

theorem passing_setsNoOutput : SetsNoOutput passing := by
  intro a n b h
  cases h
  exact ⟨rfl, rfl, rfl⟩

/-- A request that lists a value for the input, and one for no argument, fills in the input alone; the lamp
answers with the output as it was. -/
theorem applyRequest_fills_set :
    let call : Soap.Call := ⟨"Set", some "urn:x:switch:1", [("On", "1"), ("Colour", "red")]⟩
    call.name = (actionOf "Set").name ∧ ∃ filled, (actionOf "Set").applyRequest call = .ok filled ∧
      (actionOf "Set").OnlyInputsChange filled ∧ filled.valuesIn .input = [("On", "1")] ∧
      ((lampWith "Set").handle (some passing) none (settingRequest call.arguments) 0).1 =
        (lampWith "Set").xmlResponse 200 (Soap.encodeResponse "urn:x:switch:1" "Set" [("Was", "")]) := by
  intro call
  have hbody : Soap.decodeRequest (settingRequest call.arguments).body = .ok call :=
    decodeRequest_settingRequest (by decide)
  obtain ⟨filled, hfilled, honly, hsame, hanswer⟩ := applyRequest_fills (actionOf "Set") call rfl
  -- nothing is listed for the output
  have hinput : ∀ x v, (actionOf "Set").Supplied call.arguments x v → x.direction ≠ .input → v = x.value := by
    rintro x v ⟨hx, hv⟩ hd
    obtain ⟨i, hi, -⟩ := Action.argument_eq_ok_iff.1 hx
    have harguments : (actionOf "Set").arguments = [(actionOf "Set").own { name := "On", direction := .input },
      (actionOf "Set").own { name := "Was", direction := .output }] := rfl
    have hmem := List.mem_of_getElem? hi
    rw [harguments, List.mem_cons, List.mem_singleton] at hmem
    rcases hmem with rfl | rfl
    · exact absurd rfl hd
    · have hnone : Action.lastListed? call.arguments "Was" = none := Action.lastListed?_eq_none.2 (by decide)
      cases hnone.symm.trans (Action.lastListed?_eq_some.2 hv)
  have hunchanged : filled.valuesIn .output = [("Was", "")] :=
    hsame.2 fun x v hv hd => hinput x v hv (by rw [hd]; decide)
  refine ⟨rfl, filled, hfilled, honly.2 hinput, ?_, ?_⟩
  · cases hfilled
    rfl
  · rw [hanswer (lampWith "Set") _ (switchOf "Set") (switchOf "Set").link (target_settingRequest _) rfl hbody passing
      passing_setsNoOutput none 0 filled rfl, hunchanged]
    rfl

/-- A request that lists a value for the output overwrites it, and an application that sets no output answers
with what the client has sent. -/
theorem output_supplied_by_client :
    let values := [("On", "1"), ("Was", "secret")]
    ∃ call filled, Soap.decodeRequest (settingRequest values).body = .ok call ∧
      call.name = (actionOf "Set").name ∧ (actionOf "Set").applyRequest call = .ok filled ∧
      ¬ (actionOf "Set").OnlyInputsChange filled ∧ SetsNoOutput passing ∧
      (actionOf "Set").valuesIn .output = [("Was", "")] ∧
      ((lampWith "Set").handle (some passing) none (settingRequest values) 0).1 =
        (lampWith "Set").xmlResponse 200 (Soap.encodeResponse "urn:x:switch:1" "Set" [("Was", "secret")]) := by
  intro values
  have hbody : Soap.decodeRequest (settingRequest values).body = .ok ⟨"Set", some "urn:x:switch:1", values⟩ :=
    decodeRequest_settingRequest (by decide)
  refine ⟨_, _, hbody, rfl, applyRequest_of_name rfl, fun honly => ?_, passing_setsNoOutput, rfl, ?_⟩
  · have hvalue := honly 1 _ _ rfl rfl (by decide)
    exact absurd hvalue (by decide)
  · have hran : (lampWith "Set").Handled (some passing) none (settingRequest values) 0 _ _ _ :=
      .ran (target_settingRequest values) rfl hbody rfl (applyRequest_of_name rfl) (.done rfl)
    rw [handle_eq_handleNoting, hran.handleNoting_eq]
    rfl

end Responder

end Upnp
