import Upnp.Xml.Reader
import Upnp.Proofs.Markup.Escape

/-
Reading a document passage by passage. A passage of the text takes the reader from one place to
another, and passages that follow each other join, so that the steps of the reader are counted once
and for all here: when a passage leads through the whole text, the bound on the steps is never met.
-/

namespace Upnp.Xml

open Upnp.Text

/-- Where the reading of a document stands: its position in the text and the trees under way. -/
structure Reading where
  position : Position
  growth : Growth

namespace Reading

/-- Reading on leads from one place to another, `rest` being the text behind it. -/
inductive Passage : Reading → List Char → Reading → List Char → Prop
  | done (s : Reading) (cs : List Char) : Passage s cs s cs
  | part {s t : Reading} {cs rest : List Char} {part : Part} {growth : Growth}
    (hread : s.position.read? cs = some part) (hless : part.rest.length < cs.length)
    (hgrow : part.events.foldlM Growth.addEvent? s.growth = some growth)
    (h : Passage ⟨part.position, growth⟩ part.rest t rest) : Passage s cs t rest

namespace Passage

theorem trans {s t u : Reading} {cs ds es : List Char} (h : Passage s cs t ds) (k : Passage t ds u es) :
    Passage s cs u es := by
  induction h with
  | done => exact k
  | part hread hless hgrow _ ih => exact .part hread hless hgrow (ih k)

/-- One part by itself. -/
theorem single {p : Position} {g growth : Growth} {cs : List Char} {part : Part} (hread : p.read? cs = some part)
    (hless : part.rest.length < cs.length) (hgrow : part.events.foldlM Growth.addEvent? g = some growth) :
    Passage ⟨p, g⟩ cs ⟨part.position, growth⟩ part.rest :=
  .part hread hless hgrow (.done _ _)

/-- A passage through the rest of a document gives the events of that rest. -/
theorem eventsFrom? {s t : Reading} {cs : List Char} (h : Passage s cs t []) (hinside : t.position.isInside = false)
    (hrooted : t.position.stage = .rooted) {fuel : Nat} (hf : cs.length ≤ fuel) :
    ∃ events, Xml.eventsFrom? fuel s.position cs = some events ∧
      events.foldlM Growth.addEvent? s.growth = some t.growth := by
  generalize hrest : ([] : List Char) = rest at h
  induction h generalizing fuel with
  | done s cs =>
    subst hrest
    refine ⟨[], ?_, rfl⟩
    rw [Xml.eventsFrom?.eq_def]
    simp [hinside, hrooted]
  | @part s t cs rest part growth hread hless hgrow _ ih =>
    -- a part is shorter than what it was read from, so one step of the bound pays for it
    obtain ⟨fuel, rfl⟩ : ∃ f, fuel = f + 1 := ⟨fuel - 1, by omega⟩
    have hrestFuel : part.rest.length ≤ fuel := by omega
    obtain ⟨events, hevents, hfold⟩ := ih hinside hrooted hrestFuel hrest
    cases cs with
    | nil => simp at hless
    | cons c cs =>
      refine ⟨part.events ++ events, ?_, ?_⟩
      · rw [Xml.eventsFrom?, hread, Option.bind_some, hevents, Option.map_some]
      · rw [List.foldlM_append, hgrow]
        exact hfold

end Passage

/-- A document is read when a passage leads from behind its declaration to its end. -/
theorem readAll?_of_passage {text cs : List Char} {t : Reading}
    (hdeclaration : readDeclaration? text = some (false, cs))
    (h : Passage ⟨{ outside := cs.length + 1 }, {}⟩ cs t []) (hinside : t.position.isInside = false)
    (hrooted : t.position.stage = .rooted) : readAll? text = some t.growth.nodes := by
  have hfuel : cs.length ≤ fuelFor cs := by
    unfold fuelFor maxExpansions
    have hsquare : cs.length + 1 ≤ (cs.length + 1) * (cs.length + 1) :=
      Nat.le_mul_of_pos_right _ (Nat.succ_pos _)
    omega
  obtain ⟨events, hevents, hgrow⟩ := h.eventsFrom? hinside hrooted hfuel
  unfold readAll? events?
  rw [hdeclaration]
  show (Xml.eventsFrom? (fuelFor cs) _ cs).bind _ = _
  rw [hevents, Option.bind_some, hgrow]
  rfl

end Reading

end Upnp.Xml
