import Upnp.Proofs.Config.Changes

/-
Configurations that are saved and loaded again. Loading lays the tree of the file over the defaults once more
and puts its keys in lower case once more. Both change nothing as long as every mapping of the tree that has a
default mapping below still begins with the keys of that one. Loading makes such a tree, and it stays one when
scalars are set: a section that a scalar replaces is no mapping any more, and cannot become one again.
-/

namespace Upnp.Config

open Upnp.Text Upnp.Yaml

/-! ## Trees that cover the defaults -/

/-- Wherever both trees have a mapping, that of the upper tree begins with the keys of the lower one. -/
inductive Covers : Value → Value → Prop
  | leaf {d t : Value} (h : ∀ ds es, d = .mapping ds → t ≠ .mapping es) : Covers d t
  | mapping {ds front rest : Entries} (hk : front.map Prod.fst = ds.map Prod.fst)
    (h : ∀ d ∈ ds, ∀ e ∈ front, d.1 = e.1 → Covers d.2 e.2) : Covers (.mapping ds) (.mapping (front ++ rest))

theorem covers_of_not_mapping {d t : Value} (h : ∀ es, t ≠ .mapping es) : Covers d t :=
  .leaf fun _ es _ => h es

theorem covers_refl {d : Value} (hd : Apart d) : Covers d d := by
  induction d using Value.mapping_induction with
  | leaf d h => exact covers_of_not_mapping h
  | mapping ds ih =>
    obtain ⟨hdist, hds⟩ := apart_mapping_iff.1 hd
    have hall : Covers (.mapping ds) (.mapping (ds ++ [])) := .mapping rfl fun d hmem e he hk => by
      rw [← hdist.eq_of_fst_eq hmem he hk]
      exact ih d hmem (hds d hmem)
    rwa [List.append_nil] at hall

/-- What is laid over a tree covers it. -/
theorem covers_overlaid {d : Value} (hd : Apart d) (v : Value) : Covers d (overlaid d v) := by
  induction d using Value.mapping_induction generalizing v with
  | leaf d h => exact .leaf fun ds _ hds => absurd hds (h ds)
  | mapping ds ih =>
    obtain ⟨hdist, hds⟩ := apart_mapping_iff.1 hd
    cases v with
    | mapping es =>
      rw [overlaid]
      refine .mapping ?_ fun d hmem e he hk => ?_
      · rw [overlaidEntries_eq_map, List.map_map]
        exact List.map_congr_left fun d _ => overlaidEntry_fst d es
      · obtain ⟨d', hmem', hk', hv⟩ := mem_overlaidEntries he
        obtain rfl := hdist.eq_of_fst_eq hmem hmem' (hk.trans hk')
        rcases hv with hv | ⟨w, -, hv⟩
        · rw [hv]
          exact covers_refl (hds d hmem)
        · rw [hv]
          exact ih d hmem (hds d hmem) w.2
    | _ =>
      refine covers_of_not_mapping fun es h => ?_
      cases h

/-- Entries of the same keys that stand for what is made of each are what is made of all. -/
theorem map_eq_of_keys {f : Value × Value → Value × Value} {ds front : Entries}
    (hk : front.map Prod.fst = ds.map Prod.fst) (h : ∀ d ∈ ds, ∀ e ∈ front, d.1 = e.1 → f d = e) :
    ds.map f = front := by
  induction ds generalizing front with
  | nil => exact (List.map_eq_nil_iff.1 hk).symm
  | cons d ds ih =>
    cases front with
    | nil => cases hk
    | cons e front =>
      obtain ⟨hke, hks⟩ := List.cons.inj hk
      rw [List.map_cons, h d List.mem_cons_self e List.mem_cons_self hke.symm,
        ih hks fun d hd e he => h d (List.mem_cons_of_mem _ hd) e (List.mem_cons_of_mem _ he)]

/-- A tree that covers another stays as it is when it is laid over that one. -/
theorem overlaid_of_covers {d t : Value} (h : Covers d t) (ht : Apart t) : overlaid d t = t := by
  induction h with
  | @leaf d t h =>
    cases d with
    | mapping ds => exact overlaid_not_mapping _ fun es => h ds es rfl
    | _ => rfl
  | @mapping ds front rest hk h ih =>
    obtain ⟨hdist, hes⟩ := apart_mapping_iff.1 ht
    have hfront : overlaidEntries ds (front ++ rest) = front := by
      rw [overlaidEntries_eq_map]
      refine map_eq_of_keys hk fun d hd e he hke => ?_
      obtain ⟨k, v⟩ := d
      obtain ⟨l, w⟩ := e
      obtain rfl : k = l := hke
      have hmem : (k, w) ∈ front ++ rest := List.mem_append_left _ he
      rw [overlaidEntry, Entries.find?_of_mem hdist hmem]
      simp only [ih _ hd _ he rfl (hes _ hmem)]
    have hrest : newEntries ds (front ++ rest) = rest := by
      rw [newEntries_append, newEntries_of_keys hk, List.nil_append]
      refine newEntries_eq_self fun e he d hd => ?_
      obtain ⟨f, hf, hkf⟩ := List.mem_map.1 (hk.symm ▸ List.mem_map_of_mem hd)
      exact hkf ▸ (List.pairwise_append.1 hdist).2.2 f hf e he
    rw [overlaid, hfront, hrest]

/-- A scalar that is set leaves the tree covering what it covers. -/
theorem covers_set {v d t t' : Value} {path : List String} (hc : Covers d t) (hv : ∀ es, v ≠ .mapping es)
    (h : set v path t = .ok t') : Covers d t' := by
  induction path generalizing d t t' with
  | nil =>
    cases h
    exact covers_of_not_mapping hv
  | cons k path ih =>
    obtain ⟨entries, child, rfl, hchild, rfl⟩ := set_cons_eq_ok h
    cases hc with
    | leaf hleaf => exact .leaf fun ds es hds _ => hleaf ds entries hds rfl
    | @mapping ds front rest hk hcovers =>
      rcases Entries.put_cases (keyOf k) child front with ⟨hnone, -⟩ | ⟨xs, l, old, ys, rfl, hl, hxs, -⟩
      · rw [Entries.put_append hnone]
        exact .mapping hk hcovers
      · obtain rfl : l = keyOf k := Value.same_string.1 hl
        rw [List.append_assoc, List.cons_append] at hchild ⊢
        rw [Entries.find?_append, hxs, Option.none_or, Entries.find?_cons_self, Option.getD_some] at hchild
        rw [Entries.put_append hxs, Entries.put_cons_self, ← List.cons_append, ← List.append_assoc]
        -- the entry keeps its key, and what stands under it covers what it has covered
        refine .mapping (by rw [← hk, List.map_append, List.map_append, List.map_cons, List.map_cons]) ?_
        intro d hd e he hke
        rw [List.mem_append, List.mem_cons] at he
        rcases he with he | rfl | he
        · exact hcovers d hd e (List.mem_append_left _ he) hke
        · exact ih (hcovers d hd _ (List.mem_append_right _ List.mem_cons_self) hke) hchild
        · exact hcovers d hd e (List.mem_append_right _ (List.mem_cons_of_mem _ he)) hke

/-! ## Trees that stay as they are -/

/-- A tree in lower case that covers the defaults. -/
structure Settled (t : Value) : Prop where
  apart : Apart t
  lower : lowered t = t
  covers : Covers standardTree t

theorem settled_overlay (v : Value) : Settled (overlay v) where
  apart := apart_lowerKeys _
  lower := lowered_lowerKeys _
  covers := overlay_eq_overlaid v ▸ covers_overlaid plain_standardTree.apart _

theorem Settled.overlay_eq_self {t : Value} (h : Settled t) : overlay t = t := by
  rw [overlay_eq_overlaid, lowerKeys_eq_self h.apart h.lower, overlaid_of_covers h.covers h.apart]

theorem Settled.set {v t t' : Value} {path : List String} (ht : Settled t) (hv : v.IsScalar)
    (h : Config.set v path t = .ok t') : Settled t' where
  apart := apart_set h (apart_of_isScalar hv) ht.apart
  lower := lowered_set h (lowered_of_isScalar hv) ht.lower
  covers := covers_set ht.covers (fun es he => by rw [he] at hv; exact hv) h

/-! ## Saving and loading -/

/-- No variable names the directory of the configuration or overrides a setting. -/
structure Surroundings.Unset (s : Surroundings) : Prop where
  directory : s.environment.lookup directoryVariable = none
  overrides : ∀ x ∈ s.environment, overridePath? x.1 = none

/-- The surroundings when a text has been put in the file of a configuration: no directory is made if that of the
file was there. -/
structure Surroundings.Put (s : Surroundings) (path text : String) (s' : Surroundings) : Prop where
  file : s'.file? path = some (Utf8.encode text)
  home : s'.home = s.home
  directories : ∀ directory, joinPath directory fileName = path → s.hasDirectory directory = true →
    s'.hasDirectory = s.hasDirectory

section

variable {s s' : Surroundings} {asked : String}

theorem Settled.load {c : Config} (hu : s.Unset) (h : Config.load s asked = .ok c) : Settled c.tree := by
  obtain ⟨-, tree, htree, happly⟩ := load_eq_ok h
  obtain ⟨v, rfl⟩ := fileTree_eq_overlay htree
  rw [happly, applyOverrides_of_none hu.overrides]
  exact settled_overlay v

/-- A directory that is not asked for is there. -/
theorem hasDirectory_of_directory? (hu : s.Unset) (ha : asked.isEmpty = true) {directory : String}
    (h : directory? s asked = some directory) : s.hasDirectory directory = true := by
  rw [directory?, ha, hu.directory, Bool.not_true, if_neg Bool.false_ne_true] at h
  dsimp only at h
  split at h
  · rename_i hhere
    exact Option.some.inj h ▸ hhere
  · exact (Option.filter_eq_some_iff.1 h).2

theorem directory?_put {path text directory : String} (hu : s.Unset) (hu' : s'.Unset) (hp : s.Put path text s')
    (h : directory? s asked = some directory) (hpath : joinPath directory fileName = path) :
    directory? s' asked = some directory := by
  cases ha : asked.isEmpty with
  | true =>
    have hsame := hp.directories directory hpath (hasDirectory_of_directory? hu ha h)
    rw [← h, directory?, directory?, hu.directory, hu'.directory, hsame, hp.home]
  | false =>
    rw [directory?, ha] at h ⊢
    exact h

/-- What is saved after scalars have been set is loaded again as it was, where the reader reads the tree that the
writer wrote. -/
theorem load_saved {c : Config} {changes : List Change} {path text : String} (hu : s.Unset)
    (hl : load s asked = .ok c) (hv : ∀ change ∈ changes, change.written.IsScalar)
    (hs : (c.after changes).saved = .ok (path, text)) (hr : Yaml.read? text = some (c.after changes).tree)
    (hp : s.Put path text s') (hu' : s'.Unset) : load s' asked = .ok (c.after changes) := by
  have hkept : Settled (c.after changes).tree ∧ (c.after changes).path = c.path := by
    refine after_induction (P := fun c' => Settled c'.tree ∧ c'.path = c.path) ⟨.load hu hl, rfl⟩ ?_
    intro change hchange c₁ c₂ hc₁ hok
    rw [Change.apply_eq] at hok
    obtain ⟨hset, hpath⟩ := setValue_eq_ok hok
    exact ⟨hc₁.1.set (hv change hchange) hset, hpath.trans hc₁.2⟩
  obtain ⟨hsettled, hsame⟩ := hkept
  generalize c.after changes = c' at hs hr hsettled hsame
  have hpath : c'.path = some path := by
    unfold saved at hs
    split at hs
    · rename_i p hfile
      cases hs
      exact hfile
    · cases hs
  obtain ⟨directory, hdirectory, hjoin⟩ : ∃ directory, directory? s asked = some directory ∧
      joinPath directory fileName = path :=
    Option.map_eq_some_iff.1 ((load_eq_ok hl).1.symm.trans (hsame.symm.trans hpath))
  have hfinds : s'.Finds asked path text := by
    refine ⟨?_, _, hp.file, Utf8.decode_encode text⟩
    rw [directory?_put hu hu' hp hdirectory hjoin, Option.map_some, hjoin]
  rw [load_of_read? hfinds hr hu'.overrides, hsettled.overlay_eq_self, ← hpath]

end

/-! ## Sections that scalars replace -/

/-- Scalars that replace sections, a number of a section that is left, and one of a section that is closed. -/
def scalarChanges : List Change :=
  [.value ["SSDP"] (.bool false), .value ["control_point"] (.string "none"), .value ["Device"] .null,
    .number .devicePortBase 7000, .number .httpTimeoutSecs 5, .value ["product"] (.string "lamp")]

def scalarTree : Value :=
  .mapping [
    (.string "ssdp", .bool false),
    (.string "control_point", .string "none"),
    (.string "device", .null),
    (.string "http", .mapping [(.string "timeout_secs", .number (.int 5))]),
    (.string "product", .string "lamp")]

def scalarText : String :=
  "ssdp: false\ncontrol_point: none\ndevice: null\nhttp:\n  timeout_secs: 5\nproduct: lamp\n"

theorem write_scalarTree : Yaml.write scalarTree = scalarText := by
  decide +kernel

theorem read?_scalarText : Yaml.read? scalarText = some scalarTree := by
  have htokens : ((places? scalarText.toList).bind tokens?) = some [.blockMapping,
      .key, .scalar true "ssdp".toList, .value, .scalar true "false".toList,
      .key, .scalar true "control_point".toList, .value, .scalar true "none".toList,
      .key, .scalar true "device".toList, .value, .scalar true "null".toList,
      .key, .scalar true "http".toList, .value, .blockMapping,
      .key, .scalar true "timeout_secs".toList, .value, .scalar true "5".toList, .blockEnd,
      .key, .scalar true "product".toList, .value, .scalar true "lamp".toList, .blockEnd] := by
    decide +kernel
  have hwords : ∀ s ∈ ["ssdp", "control_point", "none", "device", "http", "timeout_secs", "product", "lamp"],
      plainValue? s = some (.string s) := by
    simp only [List.forall_mem_cons]
    exact ⟨rfl, rfl, rfl, rfl, rfl, rfl, rfl, rfl, fun s hs => absurd hs List.not_mem_nil⟩
  simp only [List.forall_mem_cons] at hwords
  have hfalse : plainValue? "false" = some (.bool false) := rfl
  have hnull : plainValue? "null" = some .null := rfl
  have hfive : plainValue? "5" = some (.number (.int 5)) := rfl
  have hvalue : Node.value? (.mapping {} [
      (.scalar {} true "ssdp", .scalar {} true "false"), (.scalar {} true "control_point", .scalar {} true "none"),
      (.scalar {} true "device", .scalar {} true "null"),
      (.scalar {} true "http", .mapping {} [(.scalar {} true "timeout_secs", .scalar {} true "5")]),
      (.scalar {} true "product", .scalar {} true "lamp")]) = some scalarTree := by
    simp [scalarTree, Node.value?, Node.expand?, expandEntries?, expandEntry?, scalarValue?, hwords, hfalse, hnull,
      hfive, Anchors.enter, Anchors.complete, distinctEntries?, Entries.find?, Entries.put, Value.same,
      Expansion.collect?, Node.events, entryEvents, pairEvents, maxDepth, maxJumpsPerEvent]
  exact (read?_of_tokens htokens rfl).trans hvalue

/-- The configuration of a file with a tree. -/
def fileConfig (tree : Value) : Config :=
  { path := some "etc/config.yaml", tree }

theorem after_scalarChanges : (fileConfig standardTree).after scalarChanges = fileConfig scalarTree := by
  have hkeys : toLower "SSDP" = "ssdp" ∧ toLower "control_point" = "control_point" ∧ toLower "Device" = "device" ∧
      toLower "device" = "device" ∧ toLower "port_base" = "port_base" ∧ toLower "http" = "http" ∧
      toLower "timeout_secs" = "timeout_secs" ∧ toLower "product" = "product" := by decide
  simp [fileConfig, after, scalarChanges, Change.apply, setNumber, setValue, NumberSetting.path, standardTree, scalarTree, set,
    keyOf, hkeys, Entries.find?, Entries.put, Value.same, Except.toOption, bind, Except.bind]

/-- The surroundings with this text in the file. -/
def scalarSurroundings : Surroundings where
  hasDirectory := fun directory => directory == "etc"
  file? := fun path => if path = "etc/config.yaml" then some (Utf8.encode scalarText) else none

/-- Where there was no file, what has been set of the defaults is there again, and so are the sections that were
closed. -/
theorem load_saved_scalars :
    Surroundings.Unset {} ∧ load {} "etc" = .ok (fileConfig standardTree) ∧
    (∀ change ∈ scalarChanges, change.written.IsScalar) ∧
    (fileConfig standardTree).after scalarChanges = fileConfig scalarTree ∧
    (fileConfig scalarTree).saved = .ok ("etc/config.yaml", scalarText) ∧
    Yaml.read? scalarText = some scalarTree ∧ Surroundings.Put {} "etc/config.yaml" scalarText scalarSurroundings ∧
    scalarSurroundings.Unset ∧ load scalarSurroundings "etc" = .ok (fileConfig scalarTree) := by
  have hunset : ∀ s : Surroundings, s.environment = [] → s.Unset := fun s hs =>
    ⟨by rw [hs]; rfl, fun x hx => by rw [hs] at hx; cases hx⟩
  have hload : load {} "etc" = .ok (fileConfig standardTree) := by
    have hpath : (directory? {} "etc").map (joinPath · fileName) = some "etc/config.yaml" := by decide
    unfold load fileTree
    simp only [hpath, Option.bind_some, lowerKeys_standardTree]
    rfl
  have hscalar : ∀ change ∈ scalarChanges, change.written.IsScalar := by
    simp [scalarChanges, Change.written, Value.IsScalar]
  have hsaved : (fileConfig scalarTree).saved = .ok ("etc/config.yaml", scalarText) := by
    show Except.ok (_, Yaml.write scalarTree) = _
    rw [write_scalarTree]
  have hput : Surroundings.Put {} "etc/config.yaml" scalarText scalarSurroundings :=
    ⟨rfl, rfl, fun directory _ h => nomatch h⟩
  have hagain := load_saved (hunset {} rfl) hload hscalar (after_scalarChanges ▸ hsaved)
    (after_scalarChanges ▸ read?_scalarText) hput (hunset scalarSurroundings rfl)
  exact ⟨hunset _ rfl, hload, hscalar, after_scalarChanges, hsaved, read?_scalarText, hput, hunset _ rfl,
    after_scalarChanges ▸ hagain⟩

end Upnp.Config
