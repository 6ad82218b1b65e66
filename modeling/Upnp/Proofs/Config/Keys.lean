import Upnp.Proofs.Config.Changes

/-
Keys of a configuration. Whoever asks for a value asks with keys in lower case, and so do the paths of changes
and of overriding variables; but a value that is set comes with keys of its own, which stay as they are. So
all that stands in a tree is found if every value that was set has its keys in lower case, and what stands
under any other key is not found.
-/

namespace Upnp.Config

open Upnp.Text Upnp.Yaml

/-! ## Keys of a tree -/

/-- The value stands in the tree: in a sequence or under a key, but not behind a tag. -/
inductive Within (w : Value) : Value → Prop
  | here : Within w w
  | item {items : List Value} {v : Value} (h : v ∈ items) (hw : Within w v) : Within w (.sequence items)
  | value {entries : Entries} {k v : Value} (h : (k, v) ∈ entries) (hw : Within w v) : Within w (.mapping entries)

/-- In all mappings of the tree the keys that are strings are in lower case. -/
def InLowerCase (v : Value) : Prop :=
  ∀ entries, Within (.mapping entries) v → ∀ s w, (.string s, w) ∈ entries → toLower s = s

theorem Within.trans {u v w : Value} (h : Within u v) (hw : Within v w) : Within u w := by
  induction hw with
  | here => exact h
  | item hmem _ ih => exact .item hmem ih
  | value hmem _ ih => exact .value hmem ih

theorem InLowerCase.of_within {v w : Value} (h : InLowerCase v) (hw : Within w v) : InLowerCase w :=
  fun entries he => h entries (he.trans hw)

theorem within_of_at {v w : Value} {path : List String} (h : At v path w) : Within w v := by
  induction h with
  | here v => exact .here
  | into hmem _ ih => exact .value hmem ih

theorem lowerKey_eq_self_iff {k : Value} : lowerKey k = k ↔ ∀ s, k = .string s → toLower s = s := by
  cases k with
  | string t =>
    rw [lowerKey, keyOf, Value.string.injEq]
    refine ⟨fun h s hs => ?_, fun h => h t rfl⟩
    cases hs
    exact h
  | _ =>
    refine iff_of_true rfl fun s h => ?_
    cases h

theorem inLowerCase_sequence_iff {items : List Value} :
    InLowerCase (.sequence items) ↔ ∀ v ∈ items, InLowerCase v := by
  refine ⟨fun h v hv => h.of_within (.item hv .here), fun h entries he => ?_⟩
  cases he with
  | item hv hw => exact h _ hv entries hw

theorem inLowerCase_mapping_iff {entries : Entries} :
    InLowerCase (.mapping entries) ↔ ∀ e ∈ entries, lowerKey e.1 = e.1 ∧ InLowerCase e.2 := by
  constructor
  · rintro h ⟨k, v⟩ he
    refine ⟨lowerKey_eq_self_iff.2 fun s hs => ?_, h.of_within (.value he .here)⟩
    exact h entries .here s v (hs ▸ he)
  · intro h es he
    cases he with
    | here => exact fun s w hmem => lowerKey_eq_self_iff.1 (h _ hmem).1 s rfl
    | value hmem hw => exact (h _ hmem).2 es hw

/-- A tree is in lower case if putting its keys in lower case leaves it as it is. -/
theorem inLowerCase_iff {v : Value} : InLowerCase v ↔ lowered v = v := by
  induction v using Value.induction with
  | sequence items ih =>
    rw [inLowerCase_sequence_iff, lowered_sequence_eq_self]
    exact forall₂_congr ih
  | mapping entries ih =>
    rw [inLowerCase_mapping_iff, lowered_mapping_eq_self]
    exact forall₂_congr fun e he => and_congr_right fun _ => (ih e he).2
  | _ => exact iff_of_true (fun entries he => nomatch he) rfl

/-- The value stands in the tree under the keys of the path as they are written there. -/
inductive Under : Value → List String → Value → Prop
  | here (v : Value) : Under v [] v
  | into {entries : Entries} {k : String} {path : List String} {v w : Value} (h : (.string k, v) ∈ entries)
    (hw : Under v path w) : Under (.mapping entries) (k :: path) w

theorem at_iff_under {v w : Value} {path : List String} : At v path w ↔ Under v (path.map toLower) w := by
  constructor
  · intro h
    induction h with
    | here v => exact .here v
    | into hmem _ ih => exact .into hmem ih
  · intro h
    induction path generalizing v with
    | nil =>
      cases h
      exact .here w
    | cons k path ih =>
      cases h with
      | into hmem hw => exact .into hmem (ih hw)

theorem Under.unique {v w x : Value} {path : List String} (h : Apart v) (hw : Under v path w) (hx : Under v path x) :
    w = x := by
  induction hw with
  | here v =>
    cases hx
    rfl
  | into hmem _ ih =>
    obtain ⟨hd, hes⟩ := apart_mapping_iff.1 h
    cases hx with
    | into hmem' hx =>
      obtain rfl := Option.some.inj ((Entries.find?_of_mem hd hmem).symm.trans (Entries.find?_of_mem hd hmem'))
      exact ih (hes _ hmem) hx

/-- The keys that lead to a value in a tree in lower case are in lower case. -/
theorem Under.map_toLower {v w : Value} {path : List String} (h : Under v path w) (hv : InLowerCase v) :
    path.map toLower = path := by
  induction h with
  | here v => rfl
  | into hmem _ ih =>
    rw [List.map_cons, ih (hv.of_within (.value hmem .here)), hv _ .here _ _ hmem]

/-! ## Reading, loading and changing -/

theorem apart_overrideValue (text : String) : Apart (overrideValue text) := by
  unfold overrideValue
  cases h : Yaml.read? text with
  | some v => exact apart_of_read? h
  | none => exact apart_of_isScalar trivial

/-- The configurations that are read, or loaded under overriding variables, and then changed, where what the
variables and changes set has a property. -/
inductive Reachable (P : Value → Prop) : Config → Prop
  | read {text : String} {c : Config} (h : ofYaml text = .ok c) : Reachable P c
  | load {s : Surroundings} {asked : String} {c : Config}
    (he : ∀ x ∈ s.environment, (overridePath? x.1).isSome → P (overrideValue x.2)) (h : load s asked = .ok c) :
    Reachable P c
  /-- In no mapping that is set is a key twice. -/
  | change {c c' : Config} (change : Change) (hv : P change.written) (ha : Apart change.written) (hc : Reachable P c)
    (h : change.apply c = .ok c') : Reachable P c'

namespace Reachable

variable {P : Value → Prop} {c : Config}

/-- What holds of documents over the defaults, and is kept where a value is set, holds of all these. -/
theorem tree_induction {Q : Value → Prop} (h : Reachable P c) (hoverlay : ∀ v, Q (overlay v))
    (hset : ∀ v path t t', P v → Apart v → Q t → set v path t = .ok t' → Q t') : Q c.tree := by
  induction h with
  | read h =>
    obtain ⟨v, rfl⟩ := ofYaml_eq_overlay h
    exact hoverlay v
  | load he h =>
    obtain ⟨-, tree, htree, happly⟩ := load_eq_ok h
    obtain ⟨v, rfl⟩ := fileTree_eq_overlay htree
    rw [happly]
    refine applyOverrides_induction (hoverlay v) fun x hx path hpath t t' ht h => ?_
    exact hset _ path t t' (he x hx (hpath ▸ rfl)) (apart_overrideValue x.2) ht h
  | change change hv ha _ h ih =>
    rw [Change.apply_eq] at h
    exact hset _ _ _ _ hv ha ih (setValue_eq_ok h).1

theorem apart (h : Reachable P c) : Apart c.tree :=
  h.tree_induction (fun _ => apart_lowerKeys _) fun _ _ _ _ _ hv ht h => apart_set h hv ht

theorem inLowerCase (h : Reachable P c) (hP : ∀ v, P v → InLowerCase v) : InLowerCase c.tree :=
  h.tree_induction (fun _ => inLowerCase_iff.2 (lowered_lowerKeys _)) fun v _ _ _ hv _ ht h =>
    inLowerCase_iff.2 (lowered_set h (inLowerCase_iff.1 (hP v hv)) (inLowerCase_iff.1 ht))

/-- A value is found at a path exactly if it stands under the keys of the path in lower case. As long as the
values that are set have their keys in lower case, so has the tree, and each entry is found under its keys in
any letter case; and a change of a tree in lower case leaves it so exactly if the value that it sets is. -/
theorem keys_found (h : Reachable P c) :
    (∀ q w, c.getValue q = .ok w ↔ Under c.tree (q.map toLower) w) ∧
    ((∀ v, P v → InLowerCase v) → InLowerCase c.tree ∧
      ∀ p w, Under c.tree p w → ∀ q, q.map toLower = p.map toLower → c.getValue q = .ok w) ∧
    ∀ (change : Change) (c' : Config), InLowerCase c.tree → change.apply c = .ok c' →
      (InLowerCase c'.tree ↔ InLowerCase change.written) := by
  have hget : ∀ q w, c.getValue q = .ok w ↔ Under c.tree (q.map toLower) w := fun q w =>
    (getValue_eq_ok_iff h.apart).trans at_iff_under
  refine ⟨hget, fun hP => ⟨h.inLowerCase hP, fun p w hw q hq => ?_⟩, fun change c' hc hok => ?_⟩
  · rw [hget, hq, hw.map_toLower (h.inLowerCase hP)]
    exact hw
  · rw [Change.apply_eq] at hok
    obtain ⟨hset, -⟩ := setValue_eq_ok hok
    refine ⟨fun hc' => hc'.of_within (within_of_at (at_set hset)), fun hv => ?_⟩
    exact inLowerCase_iff.2 (lowered_set hset (inLowerCase_iff.1 hv) (inLowerCase_iff.1 hc))

end Reachable

/-! ## A section with a level -/

/-- A section of one entry. -/
def levelSection (key : String) : Value :=
  .mapping [(.string key, .string "debug")]

/-- The default configuration with this section. -/
def levelConfig (key : String) : Config where
  tree := match standardTree with
    | .mapping entries => .mapping (Entries.put (keyOf "Logging") (levelSection key) entries)
    | tree => tree

theorem ofYaml_empty : ofYaml "" = .ok { tree := standardTree } := by
  rw [ofYaml, if_pos (by decide), lowerKeys_standardTree]

theorem setValue_levelSection (key : String) :
    setValue ["Logging"] (levelSection key) { tree := standardTree } = .ok (levelConfig key) := by
  rfl

theorem apart_levelSection (key : String) : Apart (levelSection key) :=
  .mapping (List.pairwise_singleton _ _) (List.forall_mem_singleton.2 (apart_of_isScalar trivial))

theorem reachable_levelConfig {P : Value → Prop} {key : String} (h : P (levelSection key)) :
    Reachable P (levelConfig key) :=
  .change (.value ["Logging"] (levelSection key)) h (apart_levelSection key) (.read ofYaml_empty)
    (setValue_levelSection key)

theorem toLower_logging : toLower "Logging" = "logging" := by
  decide

theorem at_levelConfig (key : String) : At (levelConfig key).tree ["Logging"] (levelSection key) :=
  at_set (setValue_eq_ok (setValue_levelSection key)).1

/-- The level stands in the section under the key that it came with. -/
theorem under_levelConfig (key : String) : Under (levelConfig key).tree ["logging", key] (.string "debug") := by
  have hsection := at_iff_under.1 (at_levelConfig key)
  rw [List.map_singleton, toLower_logging] at hsection
  cases hsection with
  | into hmem hw =>
    cases hw
    exact .into hmem (.into (List.mem_singleton_self _) (.here _))

theorem inLowerCase_levelSection {key : String} (h : toLower key = key) : InLowerCase (levelSection key) :=
  inLowerCase_iff.2 (congrArg (fun k => Value.mapping [(.string k, .string "debug")]) h)

/-- A level that is set under a key in lower case is found in any letter case. -/
theorem keys_found_level :
    ofYaml "" = .ok { tree := standardTree } ∧
    setValue ["Logging"] (levelSection "level") { tree := standardTree } = .ok (levelConfig "level") ∧
    Reachable InLowerCase (levelConfig "level") ∧ InLowerCase (levelConfig "level").tree ∧
    getValue ["LOGGING", "Level"] (levelConfig "level") = .ok (.string "debug") := by
  have hreach : Reachable InLowerCase (levelConfig "level") :=
    reachable_levelConfig (inLowerCase_levelSection (by decide))
  obtain ⟨-, hfound, -⟩ := hreach.keys_found
  obtain ⟨hlower, hfound⟩ := hfound fun v hv => hv
  refine ⟨ofYaml_empty, setValue_levelSection "level", hreach, hlower, ?_⟩
  exact hfound ["logging", "level"] _ (under_levelConfig "level") _ (by decide)

/-- A level that is set under a key in another letter case stands in the tree and is found in none. -/
theorem level_not_found :
    ofYaml "" = .ok { tree := standardTree } ∧
    setValue ["Logging"] (levelSection "Level") { tree := standardTree } = .ok (levelConfig "Level") ∧
    Reachable (fun _ => True) (levelConfig "Level") ∧ ¬ InLowerCase (levelConfig "Level").tree ∧
    Under (levelConfig "Level").tree ["logging", "Level"] (.string "debug") ∧
    ∀ q w, q.map toLower = ["logging", "Level"].map toLower → getValue q (levelConfig "Level") ≠ .ok w := by
  have hreach : Reachable (fun _ => True) (levelConfig "Level") := reachable_levelConfig trivial
  have hlevel : toLower "Level" = "level" := by decide
  refine ⟨ofYaml_empty, setValue_levelSection "Level", hreach, fun hlower => ?_, under_levelConfig "Level",
    fun q w hq hw => ?_⟩
  · have hsection : InLowerCase (levelSection "Level") := hlower.of_within (within_of_at (at_levelConfig "Level"))
    have hkey := hsection _ .here "Level" _ (List.mem_singleton_self _)
    exact absurd (hlevel.symm.trans hkey) (by decide)
  · have hunder : Under (levelConfig "Level").tree ["logging", "level"] w := by
      have hpath : q.map toLower = ["logging", "level"] := hq.trans (by decide)
      exact hpath ▸ at_iff_under.1 ((getValue_eq_ok_iff hreach.apart).1 hw)
    have hsection := at_iff_under.1 (at_levelConfig "Level")
    rw [List.map_singleton, toLower_logging] at hsection
    cases hunder with
    | into hmem hw =>
      -- there is one section of the name, and the only key in it is another one
      obtain rfl := Under.unique hreach.apart hsection (.into hmem (.here _))
      cases hw with
      | into hmem _ =>
        have hkey := congrArg Prod.fst (List.mem_singleton.1 hmem)
        exact absurd (Value.string.inj hkey) (by decide)

end Upnp.Config
