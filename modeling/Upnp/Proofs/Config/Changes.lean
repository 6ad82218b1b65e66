import Upnp.Proofs.Config.Layering

/-
Changes of a configuration. A value is set under the keys of its path in lower case; mappings that are
missing on the way are made, and all other entries stay as they are. So a tree whose keys differ stays so, and
a tree in lower case stays so if the value is in lower case.
-/

namespace Upnp

open Upnp.Text Upnp.Yaml

/-! ## Calls that change -/

/-- A call that changes a configuration. -/
inductive Config.Change where
  | value (path : List String) (v : Value)
  | number (s : NumberSetting) (n : Nat)
  | text (s : TextSetting) (t : String)

namespace Config

namespace Change

def path : Change → List String
  | .value path _ => path
  | .number s _ => s.path
  | .text s _ => s.path

/-- The value that is set. -/
def written : Change → Value
  | .value _ v => v
  | .number _ n => .number (.int n)
  | .text _ t => .string t

def apply (c : Config) : Change → Except ConfigError Config
  | .value path v => c.setValue path v
  | .number s n => c.setNumber s n
  | .text s t => c.setText s t

theorem apply_eq (c : Config) (change : Change) : change.apply c = c.setValue change.path change.written := by
  cases change <;> rfl

end Change

/-- The configuration after calls one by one; one that fails changes nothing. -/
def after (changes : List Change) (c : Config) : Config :=
  changes.foldl (fun c change => (change.apply c).toOption.getD c) c

theorem setValue_eq_ok {path : List String} {v : Value} {c c' : Config} (h : c.setValue path v = .ok c') :
    set v path c.tree = .ok c'.tree ∧ c'.path = c.path := by
  unfold setValue at h
  split at h
  · rename_i tree htree
    cases h
    exact ⟨htree, rfl⟩
  · cases h

/-- What every call keeps that succeeds holds after all of them. -/
theorem after_induction {P : Config → Prop} {changes : List Change} {c : Config} (hc : P c)
    (step : ∀ change ∈ changes, ∀ c c', P c → change.apply c = .ok c' → P c') : P (c.after changes) := by
  induction changes generalizing c with
  | nil => exact hc
  | cons change changes ih =>
    obtain ⟨hchange, hchanges⟩ := List.forall_mem_cons.1 step
    have hnext : P ((change.apply c).toOption.getD c) := by
      cases h : change.apply c with
      | ok c' => exact hchange c c' hc h
      | error e => exact hc
    exact ih hnext hchanges

/-! ## Setting a value -/

section

variable {v t t' : Value} {k : String} {path : List String}

theorem set_cons_eq_ok (h : set v (k :: path) t = .ok t') : ∃ entries child, t = .mapping entries ∧
    set v path ((Entries.find? (keyOf k) entries).getD (.mapping [])) = .ok child ∧
    t' = .mapping (Entries.put (keyOf k) child entries) := by
  cases t with
  | mapping entries =>
    rw [set] at h
    cases hchild : set v path ((Entries.find? (keyOf k) entries).getD (.mapping [])) with
    | ok child =>
      rw [hchild] at h
      cases h
      exact ⟨entries, child, rfl, hchild, rfl⟩
    | error e =>
      rw [hchild] at h
      cases h
  | _ => cases h

/-- What stands under a key, or the mapping made where nothing does. -/
theorem getD_find? {P : Value → Prop} {entries : Entries} (hnil : P (.mapping [])) (h : ∀ e ∈ entries, P e.2)
    (key : Value) : P ((Entries.find? key entries).getD (.mapping [])) := by
  cases hf : Entries.find? key entries with
  | none => exact hnil
  | some w =>
    obtain ⟨l, hmem⟩ := Entries.exists_mem_of_find? hf
    exact h _ hmem

theorem apart_set (h : set v path t = .ok t') (hv : Apart v) (ht : Apart t) : Apart t' := by
  induction path generalizing t t' with
  | nil =>
    cases h
    exact hv
  | cons k path ih =>
    obtain ⟨entries, child, rfl, hchild, rfl⟩ := set_cons_eq_ok h
    obtain ⟨hd, hes⟩ := apart_mapping_iff.1 ht
    have hapart : Apart child := ih hchild (getD_find? (.mapping .nil fun e he => nomatch he) hes _)
    refine .mapping (hd.put _ _) fun e he => ?_
    obtain ⟨-, rfl | ⟨d, hd, hv⟩⟩ := Entries.mem_put he
    · exact hapart
    · exact hv ▸ hes d hd

theorem lowerKey_keyOf (k : String) : lowerKey (keyOf k) = keyOf k :=
  lowerKey_lowerKey (.string k)

theorem lowered_set (h : set v path t = .ok t') (hv : lowered v = v) (ht : lowered t = t) : lowered t' = t' := by
  induction path generalizing t t' with
  | nil =>
    cases h
    exact hv
  | cons k path ih =>
    obtain ⟨entries, child, rfl, hchild, rfl⟩ := set_cons_eq_ok h
    have hes := lowered_mapping_eq_self.1 ht
    have hlow : lowered child = child :=
      ih hchild (getD_find? (P := fun w => lowered w = w) rfl (fun e he => (hes e he).2) _)
    refine lowered_mapping_eq_self.2 fun e he => ?_
    obtain ⟨hk, hw⟩ := Entries.mem_put he
    constructor
    · rcases hk with hk | ⟨d, hd, hk⟩
      · rw [hk, lowerKey_keyOf]
      · rw [hk, (hes d hd).1]
    · rcases hw with hw | ⟨d, hd, hw⟩
      · rw [hw, hlow]
      · rw [hw, (hes d hd).2]

/-- The value stands at the path where it was set. -/
theorem at_set (h : set v path t = .ok t') : At t' path v := by
  induction path generalizing t t' with
  | nil =>
    cases h
    exact .here v
  | cons k path ih =>
    obtain ⟨entries, child, rfl, hchild, rfl⟩ := set_cons_eq_ok h
    exact .into (Entries.mem_of_find?_string (Entries.find?_put_self _ _ _)) (ih hchild)

end

end Config

end Upnp
