import Mathlib.Data.List.TakeWhile
import Upnp.Proofs.Text.Run
import Upnp.Proofs.Yaml.Value
import Upnp.Yaml.Document

/-
Blank documents. White space alone opens no block and no bracket, so all that can be read of it are plain
scalars, whose values are none but scalars: a text that holds a mapping is not blank.
-/

namespace Upnp.Yaml

open Upnp.Text

/-! ## Places -/

/-- All characters are white space. -/
def AreBlank (ps : Places) : Prop :=
  ∀ p ∈ ps, isBlank p.char = true

theorem AreBlank.of_suffix {ps rest : Places} (h : AreBlank ps) (hs : rest <:+ ps) : AreBlank rest :=
  fun p hp => h p (hs.subset hp)

/-- Breaks other than line feeds are placed as line feeds, which are white space like them. -/
theorem isBlank_placed {c : Char} (h : isBlank c = true) :
    isBlank (if c = '\r' ∨ c = '\u0085' then '\n' else c) = true := by
  split
  · decide
  · exact h

theorem areBlank_of_placesFrom? {cs : List Char} (h : ∀ c ∈ cs, isBlank c = true) (line column offset : Nat)
    {ps : List Place} (hps : placesFrom? line column offset cs = some ps) : AreBlank ps := by
  fun_induction placesFrom? line column offset cs generalizing ps with
  | case1 =>
    cases hps
    exact fun p hp => absurd hp List.not_mem_nil
  | case2 line column offset cs ih =>
    obtain ⟨rest, hrest, rfl⟩ := Option.map_eq_some_iff.1 hps
    have hcs := fun c hc => h c (List.mem_cons_of_mem _ (List.mem_cons_of_mem _ hc))
    exact List.forall_mem_cons.2 ⟨show isBlank '\n' = true by decide, ih hcs hrest⟩
  | case3 => cases hps
  | case4 line column offset c cs hcr char place hyaml hbreak =>
    rename_i ih
    obtain ⟨hc, hcs⟩ := List.forall_mem_cons.1 h
    obtain ⟨rest, hrest, rfl⟩ := Option.map_eq_some_iff.1 hps
    exact List.forall_mem_cons.2 ⟨isBlank_placed hc, ih hcs hrest⟩
  | case5 line column offset c cs hcr char place hyaml hbreak =>
    rename_i ih
    obtain ⟨hc, hcs⟩ := List.forall_mem_cons.1 h
    obtain ⟨rest, hrest, rfl⟩ := Option.map_eq_some_iff.1 hps
    exact List.forall_mem_cons.2 ⟨isBlank_placed hc, ih hcs hrest⟩

theorem skipToToken_suffix (inFlow allowsKey inComment : Bool) (ps : Places) :
    (Layout.skipToToken inFlow allowsKey inComment ps).2 <:+ ps := by
  induction ps generalizing allowsKey inComment with
  | nil => exact List.suffix_refl _
  | cons p ps ih =>
    rw [Layout.skipToToken]
    split
    · exact (ih _ _).trans (List.suffix_cons p ps)
    · split
      · exact (ih _ _).trans (List.suffix_cons p ps)
      · split
        · exact (ih _ _).trans (List.suffix_cons p ps)
        · exact List.suffix_refl _

theorem plain?_suffix {r : Reach} {gap : Gap} {ps : Places} {c : Content} (h : plain? r gap ps = some c) :
    c.rest <:+ ps := by
  induction ps generalizing gap c with
  | nil =>
    cases h
    exact List.suffix_refl _
  | cons p ps ih =>
    rw [plain?] at h
    split at h
    · split at h
      · cases h
      · exact (ih h).trans (List.suffix_cons p ps)
    · split at h
      · exact (ih h).trans (List.suffix_cons p ps)
      · split at h
        · cases h
          exact List.suffix_refl _
        · split at h
          · cases h
          · obtain ⟨d, hd, rfl⟩ := Option.map_eq_some_iff.1 h
            exact (ih hd).trans (List.suffix_cons p ps)

/-! ## Tokens -/

/-- Nothing has been opened, and only plain scalars have been read. -/
structure Layout.Calm (l : Layout) : Prop where
  blocks : l.blocks = []
  outerStarts : l.outerStarts = []
  tokens : ∀ t ∈ l.tokens.toList, ∃ text, t = .scalar true text

namespace Layout

variable {l l' : Layout} {p : Place} {ps rest : Places}

theorem Calm.closeBlocks (h : l.Calm) (isLeft : Nat → Bool) : (l.closeBlocks isLeft).Calm := by
  unfold Layout.closeBlocks
  split
  · exact h
  · refine ⟨by rw [h.blocks]; rfl, h.outerStarts, ?_⟩
    simpa only [h.blocks, List.takeWhile_nil, List.map_nil, Array.appendList_nil] using h.tokens

theorem Calm.dropKeyStart? (h : l.Calm) (hl : l.dropKeyStart? = some l') : l'.Calm := by
  unfold Layout.dropKeyStart? at hl
  split at hl
  · cases hl
  · cases hl
    exact ⟨h.blocks, h.outerStarts, h.tokens⟩

theorem Calm.saveKeyStart? (h : l.Calm) (hl : l.saveKeyStart? p = some l') : l'.Calm := by
  unfold Layout.saveKeyStart? at hl
  split at hl
  · obtain ⟨m, hm, he⟩ := Option.bind_eq_some_iff.1 hl
    cases he
    have hc := h.dropKeyStart? hm
    exact ⟨hc.blocks, hc.outerStarts, hc.tokens⟩
  · cases hl
    exact h

theorem Calm.expireKeyStarts? (h : l.Calm) (hl : l.expireKeyStarts? p = some l') : l'.Calm := by
  unfold Layout.expireKeyStarts? at hl
  simp only at hl
  split at hl
  · cases hl
  · cases hl
    exact ⟨h.blocks, by rw [h.outerStarts]; rfl, h.tokens⟩

theorem Calm.plainScalar? (h : l.Calm) (hl : l.plainScalar? ps p = some (l', rest)) : l'.Calm ∧ rest <:+ ps := by
  unfold Layout.plainScalar? at hl
  obtain ⟨m, hm, hl⟩ := Option.bind_eq_some_iff.1 hl
  obtain ⟨c, hc, he⟩ := Option.bind_eq_some_iff.1 hl
  cases he
  have hcalm := h.saveKeyStart? hm
  refine ⟨⟨hcalm.blocks, hcalm.outerStarts, fun t ht => ?_⟩, plain?_suffix hc⟩
  rw [structural, push, Array.toList_push, List.mem_append] at ht
  rcases ht with ht | ht
  · exact hcalm.tokens t ht
  · exact ⟨c.text, List.mem_singleton.1 ht⟩

/-- At white space, only a plain scalar can begin. -/
theorem read?_blank (hp : isBlank p.char = true) (h : l.read? p ps = some (l', rest)) :
    l.plainScalar? (p :: ps) p = some (l', rest) := by
  have hne : ∀ c, isBlank c = false → p.char ≠ c := fun c hc he => by
    rw [he, hc] at hp
    cases hp
  have hmarker : ∀ c, isBlank c = false → Places.atMarker c (p :: ps) = false := fun c hc => by
    unfold Places.atMarker
    split
    · rename_i a b d rest he
      cases he
      rw [beq_eq_false_iff_ne.2 (hne c hc), Bool.and_false, Bool.false_and, Bool.false_and, Bool.false_and]
    · rfl
  -- every other token begins with a character that is no white space
  unfold Layout.read? at h
  simp only [hmarker '-' (by decide), hmarker '.' (by decide)] at h
  split at h
  · rename_i hc
    rw [Bool.and_eq_true, decide_eq_true_eq, decide_eq_true_eq] at hc
    exact absurd hc.2 (hne '%' (by decide))
  · simp only [Bool.false_eq_true, if_false] at h
    split at h <;> first | exact absurd ‹p.char = _› (hne _ (by decide)) | skip
    split at h
    · cases h
    · exact h

theorem Calm.readAll? {steps : Nat} {ts : Array Token} (h : l.Calm) (hps : AreBlank ps)
    (hts : l.readAll? steps ps = some ts) : ∀ t ∈ ts.toList, ∃ text, t = .scalar true text := by
  induction steps generalizing l ps with
  | zero => cases hts
  | succ steps ih =>
    rw [Layout.readAll?] at hts
    have hskip := skipToToken_suffix l.inFlow l.allowsKey false ps
    generalize skipToToken l.inFlow l.allowsKey false ps = skipped at hts hskip
    obtain ⟨allowsKey, after⟩ := skipped
    cases after with
    | nil =>
      obtain ⟨m, hm, rfl⟩ := Option.map_eq_some_iff.1 hts
      exact ((h.closeBlocks _).dropKeyStart? hm).tokens
    | cons p rest =>
      obtain ⟨m, hm, hts⟩ := Option.bind_eq_some_iff.1 hts
      obtain ⟨⟨n, more⟩, hn, hts⟩ := Option.bind_eq_some_iff.1 hts
      -- a scalar of white space leaves a suffix, and the layout as calm as it was
      have hafter := hps.of_suffix hskip
      have hcalm : Calm { l with allowsKey } := ⟨h.blocks, h.outerStarts, h.tokens⟩
      obtain ⟨hnext, hmore⟩ := ((hcalm.expireKeyStarts? hm).closeBlocks _).plainScalar?
        (read?_blank (hafter p List.mem_cons_self) hn)
      exact ih hnext (hafter.of_suffix hmore) hts

end Layout

/-! ## Documents -/

/-- Plain scalars alone make no document other than a plain scalar. -/
theorem ofTokens?_scalars {ts : List Token} (h : ∀ t ∈ ts, ∃ text, t = .scalar true text) {n : Node}
    (hn : Node.ofTokens? ts = some n) : ∃ text, n = .scalar {} true text := by
  unfold Node.ofTokens? at hn
  cases ts with
  | nil =>
    cases hn
    exact ⟨"", rfl⟩
  | cons t ts =>
    obtain ⟨text, rfl⟩ := h t List.mem_cons_self
    obtain ⟨⟨own, rest⟩, hd, hn⟩ := Option.bind_eq_some_iff.1 hn
    obtain ⟨rfl, rfl⟩ : own = [] ∧ rest = .scalar true text :: ts := by
      simpa [Node.readDirectives?, eq_comm] using hd
    simp only [List.isEmpty_cons, Bool.false_eq_true, if_false, Nat.lt_irrefl] at hn
    obtain ⟨⟨root, after⟩, hr, hn⟩ := Option.bind_eq_some_iff.1 hn
    split at hn
    · cases hn
      have hread : Node.read? Node.Handles.standard (4 * (ts.length + 1) + 4) .block (.scalar true text :: ts) =
          some (.scalar {} true (String.ofList text), ts) := by
        simp [Node.read?, Node.readProperties?, Node.ofScalar]
      rw [List.length_cons, hread] at hr
      cases hr
      exact ⟨_, rfl⟩
    · cases hn

theorem isScalar_plainValue? {s : String} {v : Value} (h : plainValue? s = some v) : v.IsScalar := by
  unfold plainValue? at h
  simp only at h
  split at h
  · cases h
    trivial
  · split at h
    · cases h
      trivial
    · split at h
      · cases h
        trivial
      · cases h
      · split at h
        all_goals
          cases h
          trivial

theorem value?_plainScalar_ne_mapping (text : String) (entries : Entries) :
    Node.value? (.scalar {} true text) ≠ some (.mapping entries) := by
  intro h
  unfold Node.value? at h
  obtain ⟨⟨e, after⟩, he, h⟩ := Option.bind_eq_some_iff.1 h
  rw [Node.expand?] at he
  obtain ⟨value, hv, he⟩ := Option.bind_eq_some_iff.1 he
  cases he
  simp only at h
  split at h
  · cases h
    exact isScalar_plainValue? hv
  · cases h

theorem forall_isBlank_of_trim {text : String} (h : (trim text).isEmpty = true) :
    ∀ c ∈ text.toList, isBlank c = true := by
  have htrim : trimChars text.toList = [] := by
    rw [← trim_toList, String.isEmpty_iff.1 h]
    rfl
  unfold trimChars dropTrailing at htrim
  rw [List.reverse_eq_nil_iff, List.dropWhile_eq_nil_iff] at htrim
  by_contra hne
  have hdrop : dropBlanks text.toList ≠ [] := fun he => hne (List.dropWhile_eq_nil_iff.1 he)
  have hhead : isBlank ((dropBlanks text.toList).head hdrop) = false := List.head_dropWhile_not isBlank hdrop
  rw [htrim _ (List.mem_reverse.2 (List.head_mem hdrop))] at hhead
  cases hhead

/-- A blank text holds no mapping. -/
theorem read?_of_blank {text : String} (h : (trim text).isEmpty = true) (entries : Entries) :
    Yaml.read? text ≠ some (.mapping entries) := by
  intro hr
  obtain ⟨ps, hps, hr⟩ := Option.bind_eq_some_iff.1 hr
  obtain ⟨tokens, ht, hr⟩ := Option.bind_eq_some_iff.1 hr
  obtain ⟨n, hn, hr⟩ := Option.bind_eq_some_iff.1 hr
  have hblank := areBlank_of_placesFrom? (forall_isBlank_of_trim h) 0 0 0 hps
  obtain ⟨all, hall, rfl⟩ := Option.map_eq_some_iff.1 ht
  have hcalm : Layout.Calm {} := ⟨rfl, rfl, fun t ht => absurd ht List.not_mem_nil⟩
  obtain ⟨content, rfl⟩ := ofTokens?_scalars (hcalm.readAll? hblank hall) hn
  exact value?_plainScalar_ne_mapping content entries hr

end Upnp.Yaml
