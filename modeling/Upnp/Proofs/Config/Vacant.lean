import Upnp.Proofs.Config.Keys
import Upnp.Proofs.Config.Overrides
import Upnp.Proofs.Text.Split

/-
Texts without settings. A blank text is the default configuration. Any other text without settings is a document
whose value is null, and null replaces the defaults as every value does that is no mapping: what is left has no
sections, so nothing is found in it and nothing can be set, though each setting asked for by its name has its
default. A file without settings is always read as a document, and variables then override nothing.
-/

namespace Upnp.Config

open Upnp.Text Upnp.Yaml

/-! ## Configurations that cannot be told apart -/

/-- Both configurations answer alike, and after any calls that change them, of which some may fail, the same calls
succeed on both and both still answer alike. -/
structure Alike (c d : Config) : Prop where
  answers : ∀ path, c.getValue path = d.getValue path
  succeeds : ∀ changes change,
    (∃ c', Change.apply (c.after changes) change = .ok c') ↔ ∃ d', Change.apply (d.after changes) change = .ok d'
  answersAfter : ∀ changes path, (c.after changes).getValue path = (d.after changes).getValue path

section

variable {c d : Config}

theorem getValue_congr (h : c.tree = d.tree) (path : List String) : c.getValue path = d.getValue path := by
  rw [getValue, getValue, h]

theorem exists_apply_iff (change : Change) :
    (∃ c', change.apply c = .ok c') ↔ ∃ t', set change.written change.path c.tree = .ok t' := by
  rw [Change.apply_eq, exists_setValue_iff]

/-- Calls change the tree alone, whatever file is behind it. -/
theorem tree_after (changes : List Change) (c : Config) : (c.after changes).tree =
    changes.foldl (fun t change => (set change.written change.path t).toOption.getD t) c.tree := by
  induction changes generalizing c with
  | nil => rfl
  | cons change changes ih =>
    have hstep : ((change.apply c).toOption.getD c).tree =
        (set change.written change.path c.tree).toOption.getD c.tree := by
      rw [Change.apply_eq, setValue]
      cases set change.written change.path c.tree <;> rfl
    rw [List.foldl_cons, ← hstep]
    exact ih _

theorem alike_iff : Alike c d ↔ c.tree = d.tree := by
  constructor
  · intro h
    have hroot := h.answers []
    exact Except.ok.inj hroot
  · intro h
    have hafter : ∀ changes, (c.after changes).tree = (d.after changes).tree := fun changes => by
      rw [tree_after, tree_after, h]
    refine ⟨getValue_congr h, fun changes change => ?_, fun changes => getValue_congr (hafter changes)⟩
    rw [exists_apply_iff, exists_apply_iff, hafter]

end

/-! ## Configurations without sections -/

/-- Nothing is found in the configuration but its root, nothing can be set below that, and each setting by name has
its default. -/
structure IsClosed (c : Config) : Prop where
  missing : ∀ k path, c.getValue (k :: path) = .error (.tree (.noMapping []))
  refused : ∀ change : Change, change.path ≠ [] → change.apply c = .error (.tree .closed)
  number : ∀ s, c.number s = s.standard
  text : ∀ s, c.text s = s.standard

section

variable {t : Value} (h : ∀ es, t ≠ .mapping es)

include h

theorem get_of_not_mapping {path : List String} (hp : path ≠ []) : get path t = .error (.noMapping []) := by
  obtain ⟨k, path, rfl⟩ := List.exists_cons_of_ne_nil hp
  cases t with
  | mapping es => exact absurd rfl (h es)
  | _ => rfl

theorem set_of_not_mapping (v : Value) {path : List String} (hp : path ≠ []) : set v path t = .error .closed := by
  obtain ⟨k, path, rfl⟩ := List.exists_cons_of_ne_nil hp
  cases t with
  | mapping es => exact absurd rfl (h es)
  | _ => rfl

theorem isClosed_of_not_mapping (path : Option String) : IsClosed { path, tree := t } where
  missing k rest := by rw [getValue, get_of_not_mapping h (List.cons_ne_nil k rest)]; rfl
  refused change hp := by rw [Change.apply_eq, setValue, set_of_not_mapping h _ hp]
  number s := by
    have hp : s.path ≠ [] := by cases s <;> exact List.cons_ne_nil _ _
    rw [Config.number, get_of_not_mapping h hp]
    rfl
  text s := by
    have hp : s.path ≠ [] := by cases s <;> exact List.cons_ne_nil _ _
    rw [Config.text, get_of_not_mapping h hp]
    rfl

end

/-! ## Variables and documents -/

/-- A variable overrides below the root. -/
theorem overridePath?_ne_nil {name : String} {path : List String} (h : overridePath? name = some path) : path ≠ [] := by
  obtain ⟨rest, -, rfl⟩ := Option.map_eq_some_iff.1 h
  rw [splitText, Ne, List.map_eq_nil_iff]
  exact splitAll_ne_nil _ _

theorem applyOverrides_of_not_mapping {t : Value} (h : ∀ es, t ≠ .mapping es) (environment : List (String × String)) :
    applyOverrides environment t = t := by
  induction environment with
  | nil => rfl
  | cons x environment ih =>
    have hself : applyOverride t x = t := by
      rw [applyOverride_eq]
      cases hp : overridePath? x.1 with
      | none => rfl
      | some path =>
        obtain ⟨k, path, rfl⟩ := List.exists_cons_of_ne_nil (overridePath?_ne_nil hp)
        exact assigned_of_not_mapping h _ k path
    rw [applyOverrides, List.foldl_cons, hself]
    exact ih

/-- Variables leave a mapping what it is. -/
theorem exists_mapping_applyOverrides {t : Value} (h : ∃ es, t = .mapping es) (environment : List (String × String)) :
    ∃ fs, applyOverrides environment t = .mapping fs := by
  refine applyOverrides_induction (P := fun t => ∃ fs, t = .mapping fs) h fun x _ path hp t t' _ hset => ?_
  obtain ⟨k, path, rfl⟩ := List.exists_cons_of_ne_nil (overridePath?_ne_nil hp)
  obtain ⟨entries, child, -, -, rfl⟩ := set_cons_eq_ok hset
  exact ⟨_, rfl⟩

theorem lowerKeys_ne_mapping {v : Value} (h : ∀ es, v ≠ .mapping es) : ∀ es, lowerKeys v ≠ .mapping es := by
  cases v with
  | mapping es => exact absurd rfl (h es)
  | _ =>
    rw [lowerKeys]
    all_goals
      intro es he
      cases he

/-- A document that is no mapping takes the place of all defaults. -/
theorem overlay_ne_mapping {v : Value} (h : ∀ es, v ≠ .mapping es) : ∀ es, overlay v ≠ .mapping es := by
  rw [overlay, merge_of_not_mapping _ (lowerKeys_ne_mapping h)]
  exact lowerKeys_ne_mapping (lowerKeys_ne_mapping h)

theorem number_standardTree (s : NumberSetting) : number s { tree := standardTree } = s.standard := by
  cases s <;> with_unfolding_all rfl

theorem text_standardTree (s : TextSetting) : text s { tree := standardTree } = s.standard := by
  cases s <;> with_unfolding_all rfl

/-! ## Texts without settings -/

/-- The text holds no setting: it is blank, or a document whose value is null. -/
def IsVacant (text : String) : Prop :=
  (trim text).isEmpty = true ∨ Yaml.read? text = some .null

theorem IsVacant.read?_ne_mapping {text : String} {v : Value} (h : IsVacant text) (hv : Yaml.read? text = some v) :
    ∀ es, v ≠ .mapping es := by
  rintro es rfl
  rcases h with h | h
  · exact read?_of_blank h es hv
  · rw [hv] at h
    cases h

theorem ofYaml_of_blank {text : String} (h : (trim text).isEmpty = true) : ofYaml text = ofYaml "" := by
  rw [ofYaml, ofYaml, if_pos h, if_pos (by decide)]

theorem overlay_null : overlay .null = .null := by
  have hnull : lowerKeys .null = .null := lowerKeys_eq_lowered (apart_of_isScalar trivial)
  have hmerge : merge standardTree .null = .null := merge_of_not_mapping _ fun es => Value.noConfusion
  rw [overlay, hnull, hmerge, hnull]

/-- Where the surroundings have no file for a configuration. -/
def Surroundings.HasNoFile (s : Surroundings) (asked : String) : Prop :=
  ((directory? s asked).map (joinPath · fileName)).bind s.file? = none

/-- Without a file, variables override the defaults. -/
theorem exists_load_of_hasNoFile {s : Surroundings} {asked : String} (h : s.HasNoFile asked) :
    ∃ d fs, load s asked = .ok d ∧ d.tree = .mapping fs := by
  obtain ⟨fs, hfs⟩ := exists_mapping_applyOverrides (t := standardTree) ⟨_, rfl⟩ s.environment
  have htree : fileTree s ((directory? s asked).map (joinPath · fileName)) = .ok standardTree := by
    rw [fileTree, h, lowerKeys_standardTree]
  have hload : load s asked = .ok
      ⟨(directory? s asked).map (joinPath · fileName), applyOverrides s.environment standardTree⟩ := by
    simp only [load, htree]
    rfl
  exact ⟨_, fs, hload, hfs⟩

/-- With a file, what is read of it is laid over the defaults, and variables override that. -/
theorem load_eq_of_finds {s : Surroundings} {asked path text : String} (h : s.Finds asked path text) :
    load s asked = match Yaml.read? text with
      | some v => .ok { path := some path, tree := applyOverrides s.environment (overlay v) }
      | none => .error .yaml := by
  obtain ⟨octets, hfile, htext⟩ := h.holds
  simp only [load, fileTree, h.found, Option.bind_some, hfile, htext, Except.toOption]
  cases Yaml.read? text <;> rfl

/-- A text without settings is the default configuration if and only if it is blank; else nothing is found in what
it is read as and nothing can be set there, and only the settings by name are the default ones. A file with such a
text is never what no file is: it is refused if it is no document, and else it leaves such a configuration, in
which variables override nothing. -/
theorem vacant_alike {text : String} (hv : IsVacant text) :
    (∃ c d, ofYaml text = .ok c ∧ ofYaml "" = .ok d ∧ (Alike c d ↔ (trim text).isEmpty = true) ∧
      (¬ (trim text).isEmpty = true → IsClosed c) ∧ (∀ s, c.number s = d.number s) ∧ ∀ s, c.text s = d.text s) ∧
    ∀ s asked path, Surroundings.Finds s asked path text →
      ((∃ c, load s asked = .ok c) ↔ ∃ v, Yaml.read? text = some v) ∧
      ∀ c, load s asked = .ok c → IsClosed c ∧
        ∀ s' asked', Surroundings.HasNoFile s' asked' → ∃ d, load s' asked' = .ok d ∧ ¬ Alike c d := by
  refine ⟨?_, fun s asked path hs => ?_⟩
  · by_cases hblank : (trim text).isEmpty = true
    · refine ⟨_, _, (ofYaml_of_blank hblank).trans ofYaml_empty, ofYaml_empty, ?_⟩
      exact ⟨iff_of_true (alike_iff.2 rfl) hblank, fun h => absurd hblank h, fun _ => rfl, fun _ => rfl⟩
    · have hread : ofYaml text = .ok { tree := .null } := by
        rw [ofYaml, if_neg hblank, hv.resolve_left hblank]
        simp only [overlay_null]
      have hclosed : IsClosed { tree := .null } := isClosed_of_not_mapping (fun es => Value.noConfusion) none
      refine ⟨_, _, hread, ofYaml_empty, iff_of_false (fun h => ?_) hblank, fun _ => hclosed, fun s => ?_, fun s => ?_⟩
      · exact Value.noConfusion (alike_iff.1 h)
      · rw [hclosed.number, number_standardTree]
      · rw [hclosed.text, text_standardTree]
  · rw [load_eq_of_finds hs]
    cases hread : Yaml.read? text with
    | none =>
      refine ⟨iff_of_false ?_ ?_, fun c hc => ?_⟩
      · rintro ⟨c, hc⟩
        cases hc
      · rintro ⟨v, hv⟩
        cases hv
      · cases hc
    | some v =>
      have hopen : ∀ es, overlay v ≠ .mapping es := overlay_ne_mapping (hv.read?_ne_mapping hread)
      refine ⟨iff_of_true ⟨_, rfl⟩ ⟨v, rfl⟩, fun c hc => ?_⟩
      simp only [applyOverrides_of_not_mapping hopen] at hc
      cases hc
      refine ⟨isClosed_of_not_mapping hopen _, fun s' asked' hno => ?_⟩
      obtain ⟨d, fs, hload, hd⟩ := exists_load_of_hasNoFile hno
      exact ⟨d, hload, fun h => hopen fs ((alike_iff.1 h).trans hd)⟩

/-- A document of a remark alone. -/
def remark : String :=
  "# nothing is set\n"

theorem read?_remark : Yaml.read? remark = some .null := by
  have htokens : (places? remark.toList).bind tokens? = some [] := by decide +kernel
  exact (read?_of_tokens htokens rfl).trans rfl

/-- A file with the remark, and a variable that overrides a number. -/
def remarkSurroundings : Surroundings where
  environment := [("PMONETUPNP_CONFIG__SSDP__SEARCH_MX", "5")]
  file? := fun path => if path = "etc/config.yaml" then some (Utf8.encode remark) else none

/-- A line of blanks is the default configuration, a remark is not, be it a text or a file. -/
theorem vacant_alike_remark :
    (IsVacant " \n" ∧ ∃ c d, ofYaml " \n" = .ok c ∧ ofYaml "" = .ok d ∧ Alike c d) ∧
    (IsVacant remark ∧ ∃ c d, ofYaml remark = .ok c ∧ ofYaml "" = .ok d ∧ ¬ Alike c d ∧ IsClosed c) ∧
    remarkSurroundings.Finds "etc" "etc/config.yaml" remark ∧
    Surroundings.HasNoFile { remarkSurroundings with file? := fun _ => none } "etc" ∧
    ∃ c d, load remarkSurroundings "etc" = .ok c ∧ IsClosed c ∧
      load { remarkSurroundings with file? := fun _ => none } "etc" = .ok d ∧ ¬ Alike c d := by
  have hblank : (trim " \n").isEmpty = true := by decide
  have hremark : ¬ (trim remark).isEmpty = true := by decide
  have hvacant : IsVacant remark := .inr read?_remark
  have hfinds : remarkSurroundings.Finds "etc" "etc/config.yaml" remark :=
    ⟨by decide, _, rfl, Utf8.decode_encode remark⟩
  have hno : Surroundings.HasNoFile { remarkSurroundings with file? := fun _ => none } "etc" := rfl
  obtain ⟨⟨c, d, hc, hd, halike, -⟩, -⟩ := vacant_alike (.inl hblank : IsVacant " \n")
  obtain ⟨⟨c', d', hc', hd', hunlike, hclosed, -⟩, hload⟩ := vacant_alike hvacant
  obtain ⟨hiff, hfile⟩ := hload _ _ _ hfinds
  obtain ⟨l, hl⟩ := hiff.2 ⟨_, read?_remark⟩
  obtain ⟨hl', hnone⟩ := hfile l hl
  obtain ⟨m, hm, hlm⟩ := hnone _ _ hno
  exact ⟨⟨.inl hblank, c, d, hc, hd, halike.2 hblank⟩,
    ⟨hvacant, c', d', hc', hd', fun h => hremark (hunlike.1 h), hclosed hremark⟩, hfinds, hno, l, m, hl, hl', hm, hlm⟩

/-- A remark hides the number of the defaults, which then cannot be set either. -/
theorem remark_hides_defaults :
    Yaml.read? remark = some .null ∧
    ofYaml remark = .ok { tree := .null } ∧ ofYaml "" = .ok { tree := standardTree } ∧
    getValue ["ssdp", "search_mx"] { tree := standardTree } = .ok (.number (.int 3)) ∧
    getValue ["ssdp", "search_mx"] { tree := .null } = .error (.tree (.noMapping [])) ∧
    (setNumber .searchMx 5 { tree := standardTree }).isOk = true ∧
    setNumber .searchMx 5 { tree := .null } = .error (.tree .closed) := by
  have hread : ofYaml remark = .ok { tree := .null } := by
    rw [ofYaml, if_neg (by decide), read?_remark]
    simp only [overlay_null]
  exact ⟨read?_remark, hread, ofYaml_empty, by with_unfolding_all rfl, rfl, by with_unfolding_all rfl, rfl⟩

end Upnp.Config
