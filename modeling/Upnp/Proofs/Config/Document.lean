import Upnp.Proofs.Config.Tree
import Upnp.Proofs.Yaml.Blank

/-
What is read of a document. A mapping of a document that has a key twice is refused, and an alias stands for a
value that was read before it, so the keys of every mapping that is read differ. A scalar has no keys, and
behind a tag of the document's own nothing is a key of the tree.
-/

namespace Upnp.Config

open Upnp.Yaml

/-! ## Scalars -/

theorem apart_taggedScalar? {tag : String} {isPlain : Bool} {s : String} {v : Value}
    (h : taggedScalar? tag isPlain s = some v) : Apart v := by
  unfold taggedScalar? at h
  refine .leaf ?_ ?_ <;> grind [Option.map_eq_some_iff]

theorem apart_scalarValue? {tag : Option String} {isPlain : Bool} {s : String} {v : Value}
    (h : scalarValue? tag isPlain s = some v) : Apart v := by
  unfold scalarValue? at h
  split at h
  · exact apart_taggedScalar? h
  · split at h
    · exact apart_of_isScalar (isScalar_plainValue? h)
    · cases h
      exact apart_of_isScalar trivial

/-! ## Collections -/

theorem distinctEntries?_concat (es : Entries) (k v : Value) : distinctEntries? (es ++ [(k, v)]) =
    (distinctEntries? es).bind fun done =>
      if (Entries.find? k done).isSome then none else some (Entries.put k v done) := by
  unfold distinctEntries?
  simp only [List.foldlM_append, List.foldlM_cons, List.foldlM_nil, bind_pure]
  rfl

/-- Only entries whose keys differ are taken, and they are taken as they are. -/
theorem distinctEntries?_eq_some {es ds : Entries} (h : distinctEntries? es = some ds) : ds = es ∧ es.Distinct := by
  induction es using List.reverseRecOn generalizing ds with
  | nil =>
    cases h
    exact ⟨rfl, .nil⟩
  | append_singleton es e ih =>
    rw [distinctEntries?_concat] at h
    obtain ⟨done, hdone, hlast⟩ := Option.bind_eq_some_iff.1 h
    obtain ⟨rfl, hd⟩ := ih hdone
    obtain ⟨hnew, hlast⟩ := Option.ite_none_left_eq_some.1 hlast
    have hput := Entries.put_of_find?_eq_none (Option.not_isSome_iff_eq_none.1 hnew) e.2
    cases hlast
    exact ⟨hput, hput ▸ hd.put e.1 e.2⟩

theorem apart_collect? {maxJumps : Nat} {tag : Option String} {parts : List Expansion} {v : Value} {e : Expansion}
    (hv : Apart v) (h : Expansion.collect? maxJumps tag parts v = some e) : Apart e.value := by
  unfold Expansion.collect? at h
  dsimp only at h
  split at h
  · cases h
  · obtain ⟨-, h⟩ := Option.ite_none_right_eq_some.1 h
    cases h
    exact apart_tagged _ v
  · obtain ⟨-, h⟩ := Option.ite_none_right_eq_some.1 h
    cases h
    exact hv

/-! ## Anchors -/

/-- The values behind anchors have no key twice. -/
def AnchorsApart (known : Anchors) : Prop :=
  ∀ x ∈ known, ∀ e, x.2 = some e → Apart e.value

section

variable {known : Anchors} (hk : AnchorsApart known)

include hk

theorem anchorsApart_enter (props : Properties) : AnchorsApart (known.enter props) := by
  unfold Anchors.enter
  split
  · intro x hx e he
    rcases Array.mem_push.1 hx with hx | rfl
    · exact hk x hx e he
    · cases he
  · exact hk

theorem anchorsApart_complete (props : Properties) (position : Nat) {e : Expansion} (he : Apart e.value) :
    AnchorsApart (known.complete props position e) := by
  unfold Anchors.complete
  split
  · intro x hx f hf
    rcases Array.mem_or_eq_of_mem_setIfInBounds hx with hx | rfl
    · exact hk x hx f hf
    · cases hf
      exact he
  · exact hk

theorem apart_of_find? {name : String} {e : Expansion} (h : known.find? name = some e) : Apart e.value := by
  obtain ⟨xs, ys, hs, -⟩ := List.lookup_eq_some_iff.1 (Option.join_eq_some_iff.1 h)
  have hmem : (name, some e) ∈ known.toList.reverse := hs ▸ List.mem_append_right xs List.mem_cons_self
  exact hk _ (Array.mem_toList_iff.1 (List.mem_reverse.1 hmem)) e rfl

end

/-! ## Nodes -/

mutual

theorem apart_expand? {maxJumps : Nat} : ∀ (n : Node) {known after : Anchors} {e : Expansion}, AnchorsApart known →
    n.expand? maxJumps known = some (e, after) → Apart e.value ∧ AnchorsApart after
  | .alias name, known, after, e, hk, h => by
    rw [Node.expand?] at h
    obtain ⟨f, hf, h⟩ := Option.bind_eq_some_iff.1 h
    cases h
    exact ⟨show Apart f.value from apart_of_find? hk hf, hk⟩
  | .scalar props isPlain text, known, after, e, hk, h => by
    rw [Node.expand?] at h
    obtain ⟨v, hv, h⟩ := Option.bind_eq_some_iff.1 h
    cases h
    have hvalue := apart_scalarValue? hv
    exact ⟨hvalue, anchorsApart_complete (anchorsApart_enter hk props) props _ hvalue⟩
  | .sequence props items, known, after, e, hk, h => by
    rw [Node.expand?] at h
    obtain ⟨⟨parts, rest⟩, hparts, h⟩ := Option.bind_eq_some_iff.1 h
    obtain ⟨f, hf, h⟩ := Option.bind_eq_some_iff.1 h
    cases h
    obtain ⟨hitems, hrest⟩ := apart_expandItems? items (anchorsApart_enter hk props) hparts
    have hvalue := apart_collect? (.sequence (List.forall_mem_map.2 hitems)) hf
    exact ⟨hvalue, anchorsApart_complete hrest props _ hvalue⟩
  | .mapping props entries, known, after, e, hk, h => by
    rw [Node.expand?] at h
    obtain ⟨⟨parts, rest⟩, hparts, h⟩ := Option.bind_eq_some_iff.1 h
    obtain ⟨es, hes, h⟩ := Option.bind_eq_some_iff.1 h
    obtain ⟨f, hf, h⟩ := Option.bind_eq_some_iff.1 h
    cases h
    obtain ⟨hentries, hrest⟩ := apart_expandEntries? entries (anchorsApart_enter hk props) hparts
    obtain ⟨rfl, hd⟩ := distinctEntries?_eq_some hes
    have hvalue := apart_collect? (.mapping hd (List.forall_mem_map.2 hentries)) hf
    exact ⟨hvalue, anchorsApart_complete hrest props _ hvalue⟩

theorem apart_expandItems? {maxJumps : Nat} : ∀ (ns : List Node) {known after : Anchors} {es : List Expansion},
    AnchorsApart known → expandItems? maxJumps known ns = some (es, after) →
      (∀ e ∈ es, Apart e.value) ∧ AnchorsApart after
  | [], known, after, es, hk, h => by
    cases h
    exact ⟨fun e he => absurd he List.not_mem_nil, hk⟩
  | n :: ns, known, after, es, hk, h => by
    rw [expandItems?] at h
    obtain ⟨⟨e, next⟩, he, h⟩ := Option.bind_eq_some_iff.1 h
    obtain ⟨⟨rest, last⟩, hrest, h⟩ := Option.bind_eq_some_iff.1 h
    cases h
    obtain ⟨hvalue, hnext⟩ := apart_expand? n hk he
    obtain ⟨hvalues, hlast⟩ := apart_expandItems? ns hnext hrest
    exact ⟨List.forall_mem_cons.2 ⟨hvalue, hvalues⟩, hlast⟩

theorem apart_expandEntries? {maxJumps : Nat} : ∀ (ns : List (Node × Node)) {known after : Anchors}
    {es : List (Expansion × Expansion)}, AnchorsApart known → expandEntries? maxJumps known ns = some (es, after) →
      (∀ e ∈ es, Apart e.2.value) ∧ AnchorsApart after
  | [], known, after, es, hk, h => by
    cases h
    exact ⟨fun e he => absurd he List.not_mem_nil, hk⟩
  | n :: ns, known, after, es, hk, h => by
    rw [expandEntries?] at h
    obtain ⟨⟨e, next⟩, he, h⟩ := Option.bind_eq_some_iff.1 h
    obtain ⟨⟨rest, last⟩, hrest, h⟩ := Option.bind_eq_some_iff.1 h
    cases h
    obtain ⟨hvalue, hnext⟩ := apart_expandEntry? n hk he
    obtain ⟨hvalues, hlast⟩ := apart_expandEntries? ns hnext hrest
    exact ⟨List.forall_mem_cons.2 ⟨hvalue, hvalues⟩, hlast⟩

theorem apart_expandEntry? {maxJumps : Nat} : ∀ (n : Node × Node) {known after : Anchors}
    {e : Expansion × Expansion}, AnchorsApart known → expandEntry? maxJumps known n = some (e, after) →
      Apart e.2.value ∧ AnchorsApart after
  | (key, value), known, after, e, hk, h => by
    rw [ expandEntry?] at h
    obtain ⟨⟨k, next⟩, hkey, h⟩ := Option.bind_eq_some_iff.1 h
    obtain ⟨⟨v, last⟩, hvalue, h⟩ := Option.bind_eq_some_iff.1 h
    cases h
    exact apart_expand? value (apart_expand? key hk hkey).2 hvalue

end

/-! ## Texts -/

theorem read?_of_tokens {text : String} {ts : List Token} {n : Node}
    (ht : (places? text.toList).bind tokens? = some ts) (hn : Node.ofTokens? ts = some n) :
    Yaml.read? text = n.value? := by
  have hread : Yaml.read? text = ((places? text.toList).bind tokens?).bind
      fun ts => (Node.ofTokens? ts).bind Node.value? := by
    rw [Option.bind_assoc]
    rfl
  rw [hread, ht, Option.bind_some, hn, Option.bind_some]

/-- In all mappings of a document the keys differ. -/
theorem apart_of_read? {text : String} {v : Value} (h : Yaml.read? text = some v) : Apart v := by
  unfold Yaml.read? at h
  obtain ⟨ps, -, h⟩ := Option.bind_eq_some_iff.1 h
  obtain ⟨ts, -, h⟩ := Option.bind_eq_some_iff.1 h
  obtain ⟨n, -, h⟩ := Option.bind_eq_some_iff.1 h
  unfold Node.value? at h
  obtain ⟨⟨e, after⟩, he, h⟩ := Option.bind_eq_some_iff.1 h
  obtain ⟨hvalue, -⟩ := apart_expand? n (fun x hx => absurd hx (Array.not_mem_empty x)) he
  obtain ⟨-, h⟩ := Option.ite_none_right_eq_some.1 h
  cases h
  exact hvalue

end Upnp.Config
