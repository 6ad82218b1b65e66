import Upnp.Config.Loading
import Upnp.Proofs.Config.Document
import Upnp.Proofs.Text.Utf8

/-
The layers of a configuration: a document over the defaults. At a path where the document has something of
its own, that is what the configuration has, but that mappings of both are merged; and where it has nothing,
and has not closed the path before, the default shows through.
-/

namespace Upnp.Config

open Upnp.Text Upnp.Yaml

/-! ## Paths -/

/-- The value stands at the path of the tree, whose keys are in lower case. -/
inductive At : Value → List String → Value → Prop
  | here (v : Value) : At v [] v
  | into {entries : Entries} {k : String} {path : List String} {v w : Value}
    (h : (.string (toLower k), v) ∈ entries) (hw : At v path w) : At (.mapping entries) (k :: path) w

theorem at_nil_iff {v w : Value} : At v [] w ↔ v = w :=
  ⟨fun | .here _ => rfl, fun h => h ▸ .here v⟩

theorem at_cons_iff {entries : Entries} (hd : entries.Distinct) {k : String} {path : List String} {w : Value} :
    At (.mapping entries) (k :: path) w ↔ ∃ v, Entries.find? (keyOf k) entries = some v ∧ At v path w := by
  constructor
  · rintro ⟨⟩
    rename_i v h hw
    exact ⟨v, Entries.find?_of_mem hd h, hw⟩
  · rintro ⟨v, h, hw⟩
    exact .into (Entries.mem_of_find?_string h) hw

theorem not_at_cons {v : Value} (h : ∀ entries, v ≠ .mapping entries) {k : String} {path : List String} {w : Value} :
    ¬ At v (k :: path) w := by
  rintro ⟨⟩
  exact h _ rfl

/-- Asking for a path finds what stands there. -/
theorem getFrom_eq_ok_iff {v w : Value} (h : Apart v) (passed path : List String) :
    getFrom passed path v = .ok w ↔ At v path w := by
  induction path generalizing v passed with
  | nil => rw [getFrom, at_nil_iff, Except.ok.injEq]
  | cons k path ih =>
    cases h with
    | leaf hs hm =>
      refine iff_of_false ?_ (not_at_cons hm)
      cases v with
      | mapping entries => exact absurd rfl (hm entries)
      | _ => exact fun h => nomatch h
    | sequence h => exact iff_of_false (fun h => nomatch h) (not_at_cons fun entries h => by cases h)
    | mapping hd h =>
      rw [at_cons_iff hd, getFrom]
      cases hf : Entries.find? (keyOf k) _ with
      | none =>
        refine iff_of_false (fun h => nomatch h) ?_
        rintro ⟨v, hv, -⟩
        cases hv
      | some v =>
        obtain ⟨key, hmem⟩ := Entries.exists_mem_of_find? hf
        simp only [Option.some.injEq, exists_eq_left']
        exact ih (h _ hmem) _

theorem getValue_eq_ok_iff {c : Config} (h : Apart c.tree) {path : List String} {w : Value} :
    c.getValue path = .ok w ↔ At c.tree path w := by
  rw [← getFrom_eq_ok_iff h [] path]
  unfold getValue get
  cases getFrom [] path c.tree with
  | ok v => exact ⟨fun h => Except.ok.inj h ▸ rfl, fun h => Except.ok.inj h ▸ rfl⟩
  | error e => exact ⟨fun h => (nomatch h), fun h => (nomatch h)⟩

theorem At.unique {v w x : Value} {path : List String} (h : Apart v) (hw : At v path w) (hx : At v path x) : w = x :=
  Except.ok.inj (((getFrom_eq_ok_iff h [] path).2 hw).symm.trans ((getFrom_eq_ok_iff h [] path).2 hx))

/-- A path that goes on behind a value that is no mapping leads nowhere. -/
theorem At.not_append {v w x : Value} {q rest : List String} (h : Apart v) (hq : At v q w)
    (hw : ∀ entries, w ≠ .mapping entries) (hr : rest ≠ []) : ¬ At v (q ++ rest) x := by
  induction hq with
  | here v =>
    cases rest with
    | nil => exact absurd rfl hr
    | cons k rest => exact not_at_cons hw
  | into hmem hq ih =>
    obtain ⟨hd, hes⟩ := apart_mapping_iff.1 h
    rw [List.cons_append, at_cons_iff hd]
    rintro ⟨y, hy, hx⟩
    rw [keyOf, Entries.find?_of_mem hd hmem] at hy
    cases hy
    exact ih (hes _ hmem) hw hx

/-! ## Paths of a layered tree -/

section

variable {own es : Entries} {s : String}

theorem find?_overlaidEntries_string (hk : ∀ d ∈ own, ∃ s, d.1 = .string s) :
    Entries.find? (.string s) (overlaidEntries own es) = (Entries.find? (.string s) own).map fun d =>
      ((Entries.find? (.string s) es).map (overlaid d)).getD d := by
  induction own with
  | nil => rfl
  | cons d own ih =>
    obtain ⟨⟨t, ht⟩, hks⟩ := List.forall_mem_cons.1 hk
    obtain ⟨k, v⟩ := d
    obtain rfl : k = .string t := ht
    rw [overlaidEntries, Entries.find?, Entries.find?, overlaidEntry_fst]
    split
    · rename_i hs
      rw [← Value.same_string.1 hs, Option.map_some, overlaidEntry]
      cases Entries.find? (.string t) es <;> rfl
    · exact ih hks

theorem find?_new_string (hk : Entries.find? (.string s) own = none) :
    Entries.find? (.string s) (newEntries own es) = Entries.find? (.string s) es := by
  induction es with
  | nil => rfl
  | cons e es ih =>
    rw [newEntries, List.filter_cons, ← newEntries]
    split
    · rw [Entries.find?, Entries.find?, ih]
    · rename_i hold
      have hne : e.1.same (.string s) = false := by
        rw [← Bool.not_eq_true]
        intro hs
        rw [not_any_iff, IsNew, Value.same_string.1 hs] at hold
        exact hold (Entries.find?_eq_none.1 hk)
      rw [ih, Entries.find?, hne]
      rfl

/-- What a layered mapping has under a string: the value of one tree, or that of the upper over that of the
lower one. -/
theorem find?_overlaid (hk : ∀ d ∈ own, ∃ s, d.1 = .string s) :
    Entries.find? (.string s) (overlaidEntries own es ++ newEntries own es) =
      match Entries.find? (.string s) own, Entries.find? (.string s) es with
      | some d, some v => some (overlaid d v)
      | some d, none => some d
      | none, v => v := by
  rw [Entries.find?_append, find?_overlaidEntries_string hk]
  cases hown : Entries.find? (.string s) own with
  | none => rw [Option.map_none, Option.none_or, find?_new_string hown]
  | some d => cases Entries.find? (.string s) es <;> rfl

end

/-- Where the upper tree has a value, the layered tree has this value, laid over that of the lower tree if
there is one. -/
theorem At.overlaid {e w : Value} {p : List String} (h : At e p w) : ∀ {d : Value}, Plain d → Apart e →
    (∃ x, At d p x ∧ At (Config.overlaid d e) p (Config.overlaid x w)) ∨
      (∀ x, ¬ At d p x) ∧ At (Config.overlaid d e) p w := by
  induction h with
  | here v => exact fun _ _ => .inl ⟨_, .here _, .here _⟩
  | @into entries k path v w hmem hw ih =>
    intro d hd he
    obtain ⟨hdist, hes⟩ := apart_mapping_iff.1 he
    have hfind : Entries.find? (.string (toLower k)) entries = some v := Entries.find?_of_mem hdist hmem
    cases hd with
    | leaf hm ha =>
      rw [overlaid_of_not_mapping hm]
      exact .inr ⟨fun x => not_at_cons hm, .into hmem hw⟩
    | @mapping own hown hk hplain =>
      have hall : Entries.find? (.string (toLower k)) (overlaidEntries own entries ++ newEntries own entries) = _ :=
        find?_overlaid hk
      rw [hfind] at hall
      cases hf : Entries.find? (.string (toLower k)) own with
      | none =>
        rw [hf] at hall
        refine .inr ⟨fun x hx => ?_, .into (Entries.mem_of_find?_string hall) hw⟩
        obtain ⟨y, hy, -⟩ := (at_cons_iff hown).1 hx
        rw [keyOf, hf] at hy
        cases hy
      | some y =>
        rw [hf] at hall
        have hy := Entries.mem_of_find?_string hf
        have hm := Entries.mem_of_find?_string hall
        rcases ih (hplain _ hy) (hes _ hmem) with ⟨x, hx, hxw⟩ | ⟨hno, hvw⟩
        · exact .inl ⟨x, .into hy hx, .into hm hxw⟩
        · refine .inr ⟨fun x hx => ?_, .into hm hvw⟩
          obtain ⟨z, hz, hzx⟩ := (at_cons_iff hown).1 hx
          obtain rfl := Option.some.inj (hf.symm.trans hz)
          exact hno x hzx

/-- Where the upper tree has nothing, though nothing in it closes the path before, the layered tree has what
the lower tree has. -/
theorem at_overlaid_iff {p : List String} : ∀ {d e : Value}, Plain d → Apart e → (∀ w, ¬ At e p w) →
    (∀ q w, q <+: p → At e q w → ∃ entries, w = .mapping entries) → ∀ w, At (overlaid d e) p w ↔ At d p w := by
  induction p with
  | nil => exact fun _ _ hno => absurd (.here _) (hno _)
  | cons k p ih =>
    intro d e hd he hno hopen w
    obtain ⟨es, rfl⟩ := hopen [] e List.nil_prefix (.here e)
    obtain ⟨hdist, hes⟩ := apart_mapping_iff.1 he
    cases hd with
    | leaf hm ha =>
      rw [overlaid_of_not_mapping hm]
      exact iff_of_false (hno w) (not_at_cons hm)
    | @mapping own hown hk hplain =>
      rw [overlaid, at_cons_iff (distinct_overlaid hown hdist), at_cons_iff hown, keyOf, find?_overlaid hk]
      have hnone : ∀ v, Entries.find? (.string (toLower k)) es = some v → ∀ x, ¬ At v p x := fun v hv x hx =>
        hno x (.into (Entries.mem_of_find?_string hv) hx)
      cases hf : Entries.find? (.string (toLower k)) own with
      | none =>
        -- what comes from the upper tree alone would be there at this path
        refine iff_of_false ?_ ?_
        · rintro ⟨v, hv, hw⟩
          exact hnone v hv w hw
        · rintro ⟨v, hv, -⟩
          cases hv
      | some y =>
        cases hv : Entries.find? (.string (toLower k)) es with
        | none => exact Iff.rfl
        | some v =>
          have hmem := Entries.mem_of_find?_string hv
          simp only [Option.some.injEq, exists_eq_left']
          refine ih (hplain _ (Entries.mem_of_find?_string hf)) (hes _ hmem) (hnone v hv) (fun q x hq hx => ?_) w
          exact hopen (k :: q) x (List.cons_prefix_cons.2 ⟨rfl, hq⟩) (.into hmem hx)

/-! ## Layers of a configuration -/

/-- What a configuration is made of two trees, the lower one with the defaults and the upper one with what was
set, path by path. -/
structure Layered (d e : Value) (c : Config) : Prop where
  /-- A value that is no mapping closes the paths that go on behind it. -/
  closed : ∀ q p w, q <+: p → q ≠ p → At e q w → (∀ entries, w ≠ .mapping entries) → ∀ x, c.getValue p ≠ .ok x
  replaced : ∀ p w, At e p w → (∀ entries, w ≠ .mapping entries) → c.getValue p = .ok w
  merged : ∀ p es ds, At e p (.mapping es) → At d p (.mapping ds) →
    c.getValue p = .ok (.mapping (overlaidEntries ds es ++ newEntries ds es))
  added : ∀ p es, At e p (.mapping es) → (∀ ds, ¬ At d p (.mapping ds)) → c.getValue p = .ok (.mapping es)
  /-- The default shows through where the upper tree has nothing and does not close the path. -/
  kept : ∀ p, (∀ w, ¬ At e p w) → (∀ q w, q <+: p → At e q w → ∃ entries, w = .mapping entries) →
    ∀ w, c.getValue p = .ok w ↔ At d p w

theorem layered_overlaid {d e : Value} (hd : Plain d) (he : Apart e) (path : Option String) :
    Layered d e { path, tree := overlaid d e } := by
  have hall : Apart (overlaid d e) := apart_overlaid he hd.apart
  have hget : ∀ {p w}, At (overlaid d e) p w → Config.getValue p { path, tree := overlaid d e } = .ok w :=
    fun h => (getValue_eq_ok_iff hall).2 h
  -- a value that is no mapping stands in the layered tree as it is
  have hvalue : ∀ {p w}, At e p w → (∀ entries, w ≠ .mapping entries) → At (overlaid d e) p w := fun h hw => by
    rcases h.overlaid hd he with ⟨x, -, hx⟩ | ⟨-, hx⟩
    · rwa [overlaid_not_mapping x hw] at hx
    · exact hx
  refine ⟨?_, fun p w h hw => hget (hvalue h hw), ?_, ?_, ?_⟩
  · rintro q p w ⟨rest, rfl⟩ hne h hw x hx
    refine (hvalue h hw).not_append hall hw ?_ ((getValue_eq_ok_iff hall).1 hx)
    rintro rfl
    exact hne (List.append_nil q).symm
  · intro p es ds h hds
    rcases h.overlaid hd he with ⟨x, hx, hw⟩ | ⟨hno, -⟩
    · obtain rfl := hx.unique hd.apart hds
      exact hget hw
    · exact absurd hds (hno _)
  · intro p es h hno
    rcases h.overlaid hd he with ⟨x, hx, hw⟩ | ⟨-, hw⟩
    · rw [overlaid_of_not_mapping fun ds hds => hno ds (hds ▸ hx)] at hw
      exact hget hw
    · exact hget hw
  · intro p hno hopen w
    rw [getValue_eq_ok_iff hall]
    exact at_overlaid_iff hd he hno hopen w

/-! ## The defaults -/

theorem plain_of_names (names : List String) {entries : Entries} (h : entries.map Prod.fst = names.map .string)
    (hn : names.Nodup) (hv : ∀ e ∈ entries, Plain e.2) : Plain (.mapping entries) := by
  refine .mapping (Entries.distinct_of_nodup h hn) (fun e he => ?_) hv
  obtain ⟨s, -, hs⟩ := List.mem_map.1 (h ▸ List.mem_map_of_mem he)
  exact ⟨s, hs.symm⟩

theorem plain_of_settings (names : List String) {entries : Entries} (h : entries.map Prod.fst = names.map .string)
    (hn : names.Nodup) (hv : ∀ e ∈ entries, (∀ items, e.2 ≠ .sequence items) ∧ ∀ es, e.2 ≠ .mapping es) :
    Plain (.mapping entries) :=
  plain_of_names names h hn fun e he => .leaf (hv e he).2 (.leaf (hv e he).1 (hv e he).2)

theorem plain_standardTree : Plain standardTree := by
  refine plain_of_names ["ssdp", "control_point", "device", "http", "product"] rfl (by decide) ?_
  simp only [List.forall_mem_cons]
  refine ⟨plain_of_settings ["search_mx", "multicast_ttl", "read_timeout_ms"] rfl (by decide) ?_,
    plain_of_settings ["port_base", "port_range"] rfl (by decide) ?_,
    plain_of_settings ["port_base", "port_range"] rfl (by decide) ?_,
    plain_of_settings ["timeout_secs"] rfl (by decide) ?_,
    plain_of_settings ["name", "version"] rfl (by decide) ?_, fun e he => absurd he List.not_mem_nil⟩ <;> simp

theorem lowered_standardTree : lowered standardTree = standardTree := by
  rfl

theorem lowerKeys_standardTree : lowerKeys standardTree = standardTree :=
  lowerKeys_eq_self plain_standardTree.apart lowered_standardTree

/-- A document is laid over the defaults as it is in lower case. -/
theorem overlay_eq_overlaid (v : Value) : overlay v = overlaid standardTree (lowerKeys v) := by
  have hapart := apart_overlaid (apart_lowerKeys v) plain_standardTree.apart
  have hlower := lowered_overlaid (lowered_lowerKeys v) lowered_standardTree
  rw [overlay, merge_eq_overlaid (apart_lowerKeys v) plain_standardTree, lowerKeys_eq_self hapart hlower]

section

variable {v : Value} (h : Apart (lowered v))

include h

/-- What a document in lower case makes of the defaults is in lower case. -/
theorem lowerKeys_overlaid : lowerKeys (overlaid standardTree (lowered v)) = overlaid standardTree (lowered v) :=
  lowerKeys_eq_self (apart_overlaid h plain_standardTree.apart)
    (lowered_overlaid (lowered_lowered v) lowered_standardTree)

theorem overlay_eq : overlay v = overlaid standardTree (lowered v) := by
  rw [overlay_eq_overlaid, lowerKeys_eq_lowered h]

end

/-! ## Documents over the defaults -/

theorem ofYaml_of_read? {text : String} {entries : Entries} (h : Yaml.read? text = some (.mapping entries)) :
    ofYaml text = .ok { tree := overlay (.mapping entries) } := by
  unfold ofYaml
  rw [h]
  exact if_neg fun hblank => read?_of_blank hblank entries h

/-- What is read is a document over the defaults, and if there is no document, an empty one. -/
theorem ofYaml_eq_overlay {text : String} {c : Config} (h : ofYaml text = .ok c) : ∃ v, c = { tree := overlay v } := by
  unfold ofYaml at h
  split at h
  · cases h
    exact ⟨.mapping [], rfl⟩
  · split at h
    · cases h
      exact ⟨_, rfl⟩
    · cases h

theorem fileTree_eq_overlay {s : Surroundings} {path : Option String} {tree : Value}
    (h : fileTree s path = .ok tree) : ∃ v, tree = overlay v := by
  unfold fileTree at h
  split at h
  · cases h
    exact ⟨.mapping [], rfl⟩
  · split at h
    · cases h
      exact ⟨_, rfl⟩
    · cases h

/-- What is loaded is the tree of the file, with the overriding variables applied. -/
theorem load_eq_ok {s : Surroundings} {asked : String} {c : Config} (h : load s asked = .ok c) :
    c.path = (directory? s asked).map (joinPath · fileName) ∧
      ∃ tree, fileTree s c.path = .ok tree ∧ c.tree = applyOverrides s.environment tree := by
  unfold load at h
  dsimp only at h
  cases htree : fileTree s ((directory? s asked).map (joinPath · fileName)) with
  | ok tree =>
    rw [htree] at h
    cases h
    exact ⟨rfl, tree, htree, rfl⟩
  | error e =>
    rw [htree] at h
    cases h

/-- The configuration's file is found, and holds a text. -/
structure Surroundings.Finds (s : Surroundings) (asked path text : String) : Prop where
  found : (directory? s asked).map (joinPath · fileName) = some path
  holds : ∃ octets, s.file? path = some octets ∧ Utf8.decode octets = .ok text

/-- What every variable keeps that sets a value holds after all of them. -/
theorem applyOverrides_induction {P : Value → Prop} {environment : List (String × String)} {tree : Value} (ht : P tree)
    (step : ∀ x ∈ environment, ∀ path, overridePath? x.1 = some path →
      ∀ t t', P t → set (overrideValue x.2) path t = .ok t' → P t') : P (applyOverrides environment tree) := by
  induction environment generalizing tree with
  | nil => exact ht
  | cons x environment ih =>
    obtain ⟨hx, hxs⟩ := List.forall_mem_cons.1 step
    have hnext : P (applyOverride tree x) := by
      obtain ⟨name, text⟩ := x
      rw [applyOverride]
      split
      · rename_i path hpath
        cases h : set (overrideValue text) path tree with
        | ok t' => exact hx path hpath tree t' ht h
        | error e => exact ht
      · exact ht
    exact ih hnext hxs

theorem applyOverrides_of_none {environment : List (String × String)}
    (h : ∀ x ∈ environment, overridePath? x.1 = none) (tree : Value) : applyOverrides environment tree = tree := by
  induction environment with
  | nil => rfl
  | cons x environment ih =>
    obtain ⟨hx, hxs⟩ := List.forall_mem_cons.1 h
    have hself : applyOverride tree x = tree := by
      obtain ⟨name, text⟩ := x
      rw [applyOverride, hx]
    rw [applyOverrides, List.foldl_cons, hself]
    exact ih hxs

theorem load_of_read? {s : Surroundings} {asked path text : String} {v : Value} (hs : s.Finds asked path text)
    (hr : Yaml.read? text = some v) (he : ∀ x ∈ s.environment, overridePath? x.1 = none) :
    load s asked = .ok { path := some path, tree := overlay v } := by
  obtain ⟨octets, hfile, htext⟩ := hs.holds
  have htree : fileTree s (some path) = .ok (overlay v) := by
    unfold fileTree
    simp only [Option.bind_some, hfile, htext, Except.toOption, hr]
  unfold load
  simp only [hs.found, htree, applyOverrides_of_none he]
  rfl

/-- A document, read from a text or from the file of a configuration, is laid over the defaults path by path:
what it has in lower case replaces the defaults, mappings are merged key by key, and the defaults show through
where it has nothing. Merging it again changes nothing, nor does putting the keys in lower case again. -/
theorem document_layered {text : String} {entries : Entries} (hr : Yaml.read? text = some (.mapping entries))
    (ha : Apart (lowered (.mapping entries))) : ∃ tree,
    ofYaml text = .ok { tree } ∧
    (∀ s asked path, Surroundings.Finds s asked path text → (∀ x ∈ s.environment, overridePath? x.1 = none) →
      load s asked = .ok { path := some path, tree }) ∧
    (∀ path, Layered standardTree (lowered (.mapping entries)) { path, tree }) ∧
    merge tree (lowerKeys (.mapping entries)) = tree ∧ lowerKeys tree = tree := by
  refine ⟨_, ofYaml_of_read? hr, fun s asked path hs he => load_of_read? hs hr he, ?_⟩
  rw [overlay_eq ha]
  refine ⟨layered_overlaid plain_standardTree ha, ?_, lowerKeys_overlaid ha⟩
  rw [lowerKeys_eq_lowered ha]
  exact merge_overlaid ha plain_standardTree

/-- A document that sets one number and closes a section. -/
def smallDocument : String :=
  "SSDP:\n  Search_MX: 5\nproduct: none\n"

def smallEntries : Entries :=
  [(.string "SSDP", .mapping [(.string "Search_MX", .number (.int 5))]), (.string "product", .string "none")]

theorem read?_smallDocument : Yaml.read? smallDocument = some (.mapping smallEntries) := by
  have htokens : ((places? smallDocument.toList).bind tokens?) = some [.blockMapping,
      .key, .scalar true "SSDP".toList, .value, .blockMapping,
      .key, .scalar true "Search_MX".toList, .value, .scalar true "5".toList, .blockEnd,
      .key, .scalar true "product".toList, .value, .scalar true "none".toList, .blockEnd] := by decide +kernel
  have hssdp : plainValue? "SSDP" = some (.string "SSDP") := rfl
  have hmx : plainValue? "Search_MX" = some (.string "Search_MX") := rfl
  have hfive : plainValue? "5" = some (.number (.int 5)) := rfl
  have hproduct : plainValue? "product" = some (.string "product") := rfl
  have hnone : plainValue? "none" = some (.string "none") := rfl
  have hvalue : Node.value? (.mapping {} [
      (.scalar {} true "SSDP", .mapping {} [(.scalar {} true "Search_MX", .scalar {} true "5")]),
      (.scalar {} true "product", .scalar {} true "none")]) = some (.mapping smallEntries) := by
    simp [smallEntries, Node.value?, Node.expand?, expandEntries?, expandEntry?, scalarValue?, hssdp, hmx, hfive,
      hproduct, hnone, Anchors.enter, Anchors.complete, distinctEntries?, Entries.find?, Entries.put, Value.same,
      Expansion.collect?, Node.events, entryEvents, pairEvents, maxDepth, maxJumpsPerEvent]
  exact (read?_of_tokens htokens rfl).trans hvalue

theorem apart_smallEntries : Apart (lowered (.mapping smallEntries)) := by
  have hnumber : Apart (.mapping [(.string "search_mx", .number (.int 5))]) :=
    (plain_of_settings ["search_mx"] rfl (by decide) (by simp)).apart
  refine .mapping (Entries.distinct_of_nodup (show _ = ["ssdp", "product"].map Value.string from rfl) (by decide)) ?_
  refine List.forall_mem_cons.2 ⟨hnumber, List.forall_mem_singleton.2 ?_⟩
  exact .leaf (fun _ h => nomatch h) fun _ h => nomatch h

/-- The surroundings of a directory with this document in its file. -/
def smallSurroundings : Surroundings where
  file? := fun path => if path = "etc/config.yaml" then some (Utf8.encode smallDocument) else none

/-- The number is set, whatever the letter case it is asked in, and the section is closed. -/
theorem document_layered_small :
    Yaml.read? smallDocument = some (.mapping smallEntries) ∧ Apart (lowered (.mapping smallEntries)) ∧
    ∃ tree, ofYaml smallDocument = .ok { tree } ∧
      load smallSurroundings "etc" = .ok { path := some "etc/config.yaml", tree } ∧
      getValue ["Ssdp", "search_mx"] { tree } = .ok (.number (.int 5)) ∧
      ∀ x, getValue ["product", "name"] { tree } ≠ .ok x := by
  obtain ⟨tree, hyaml, hload, hlayered, -⟩ := document_layered read?_smallDocument apart_smallEntries
  have hfinds : smallSurroundings.Finds "etc" "etc/config.yaml" smallDocument :=
    ⟨by decide, _, rfl, Utf8.decode_encode smallDocument⟩
  have hlower : lowered (.mapping smallEntries) = .mapping [
      (.string "ssdp", .mapping [(.string "search_mx", .number (.int 5))]), (.string "product", .string "none")] := rfl
  have hkeys : toLower "Ssdp" = "ssdp" ∧ toLower "search_mx" = "search_mx" ∧ toLower "product" = "product" := by
    decide
  have hsection : At (.mapping [(.string "search_mx", .number (.int 5))]) ["search_mx"] (.number (.int 5)) :=
    .into (by rw [hkeys.2.1]; exact .head _) (.here _)
  have hnumber : At (lowered (.mapping smallEntries)) ["Ssdp", "search_mx"] (.number (.int 5)) := by
    rw [hlower]
    exact .into (by rw [hkeys.1]; exact .head _) hsection
  have hproduct : At (lowered (.mapping smallEntries)) ["product"] (.string "none") := by
    rw [hlower]
    exact .into (by rw [hkeys.2.2]; exact .tail _ (.head _)) (.here _)
  have henv : ∀ x ∈ smallSurroundings.environment, overridePath? x.1 = none := fun x hx => absurd hx List.not_mem_nil
  have hloaded := hload smallSurroundings "etc" "etc/config.yaml" hfinds henv
  exact ⟨read?_smallDocument, apart_smallEntries, tree, hyaml, hloaded,
    (hlayered none).replaced _ _ hnumber fun _ h => (nomatch h),
    (hlayered none).closed ["product"] _ _ ⟨["name"], rfl⟩ (by decide) hproduct fun _ h => (nomatch h)⟩

end Upnp.Config
