import Upnp.Proofs.Device.Entries
import Upnp.Proofs.Xml.Document

/-
Records as elements. A record is written as an element with a child for each field, and a field is
looked up by the name of its child. Texts that are trimmed are found as they were written, whether
an empty text was written as an empty element or left out, and so are lists.
-/

namespace Upnp.Xml

open Upnp.Text

/-! ## Texts of fields -/

/-- The text has no blanks at its ends, and it holds characters of documents without carriage
returns. -/
structure IsPlainText (s : String) : Prop where
  trimmed : trim s = s
  legible : (s.toList.all fun c => isXmlChar c && c != '\r') = true

instance (s : String) : Decidable (IsPlainText s) :=
  decidable_of_iff (trim s = s ∧ (s.toList.all fun c => isXmlChar c && c != '\r') = true)
    ⟨fun h => ⟨h.1, h.2⟩, fun h => ⟨h.1, h.2⟩⟩

theorem isPlainText_of_forall {s : String} (h : ∀ c ∈ s.toList, isBlank c = false ∧ isXmlChar c = true) :
    IsPlainText s := by
  constructor
  · have hdrop : ∀ cs : List Char, (∀ c ∈ cs, isBlank c = false) → cs.dropWhile isBlank = cs := by
      intro cs hcs
      cases cs with
      | nil => rfl
      | cons c cs => exact List.dropWhile_cons_of_neg (by simp [hcs c])
    have hchars : ∀ c ∈ s.toList, isBlank c = false := fun c hc => (h c hc).1
    unfold trim trimChars dropTrailing dropBlanks
    rw [hdrop _ hchars, hdrop _ fun c hc => hchars c (List.mem_reverse.1 hc), List.reverse_reverse,
      String.ofList_toList]
  · rw [List.all_eq_true]
    intro c hc
    have hreturn : c ≠ '\r' := by
      rintro rfl
      exact absurd (h '\r' hc).1 (by decide)
    simp [(h c hc).2, hreturn]

theorem isBlank_of_isSpace {c : Char} (h : isSpace c = true) : isBlank c = true := by
  simp only [isSpace, Bool.or_eq_true, beq_iff_eq] at h
  rcases h with ((rfl | rfl) | rfl) | rfl <;> decide

/-- A plain text is kept when it is the text of an element, as white space at its ends is all that
could be lost. -/
theorem IsPlainText.isKept {s : String} (h : IsPlainText s) (hne : s ≠ "") : IsKept s := by
  constructor
  · have hall := h.legible
    simp only [List.all_eq_true, Bool.and_eq_true] at hall ⊢
    exact fun c hc => (hall c hc).1
  · by_contra hblank
    have hspace : ∀ c ∈ s.toList, isBlank c = true := by
      rw [Bool.not_eq_false, List.all_eq_true] at hblank
      exact fun c hc => isBlank_of_isSpace (hblank c hc)
    have htrim : trim s = "" := by
      unfold trim trimChars dropBlanks
      rw [List.dropWhile_eq_nil_iff.2 hspace]
      rfl
    exact hne (h.trimmed ▸ htrim)

/-! ## Legible records -/

namespace Element

theorem legible_ofElements {name : String} (hn : IsUnqualified name) {es : List Element}
    (h : ∀ e ∈ es, Legible e.toNode) : Legible (ofElements name es).toNode := by
  have hnone : LegibleAttributes (ofElements name es).attributes :=
    ⟨by simp [ofElements], by simp [ofElements], .nil, by simp [ofElements]⟩
  exact .ofElements hn hnone (by simp [ofElements]) (List.forall_mem_map.2 h)

theorem legible_ofText {name content : String} (hn : IsUnqualified name) (h : IsPlainText content) :
    Legible (ofText name content).toNode := by
  by_cases hc : content = ""
  · subst hc
    have hnone : ∀ e ∈ ([] : List Element), Legible e.toNode := by simp
    exact legible_ofElements hn hnone
  · unfold ofText
    rw [if_neg hc]
    exact .ofText hn ⟨by simp, by simp, .nil, by simp⟩ (by simp) (h.isKept hc)

theorem legible_of_mem_optionalText {name content : String} (hn : IsUnqualified name) (h : IsPlainText content) :
    ∀ e ∈ optionalText name content, Legible e.toNode := by
  intro e he
  unfold optionalText at he
  split at he
  · cases he
  · rw [List.mem_singleton.1 he]
    exact legible_ofText hn h

theorem legible_of_mem_listOf {name : String} (hn : IsUnqualified name) {es : List Element}
    (h : ∀ e ∈ es, Legible e.toNode) : ∀ e ∈ listOf name es, Legible e.toNode := by
  intro e he
  unfold listOf at he
  split at he
  · cases he
  · rw [List.mem_singleton.1 he]
    exact legible_ofElements hn h

/-! ## Looking fields up -/

theorem child?_ofElements (tag name : String) (es : List Element) :
    (ofElements tag es).child? name = es.find? (·.name == name) := by
  unfold child?
  rw [childrenNamed_ofElements, List.head?_filter]

@[simp] theorem ofText_name (name content : String) : (ofText name content).name = name :=
  rfl

@[simp] theorem ofElements_name (name : String) (es : List Element) : (ofElements name es).name = name :=
  rfl

@[simp] theorem find?_optionalText (tag name content : String) : (optionalText tag content).find? (·.name == name) =
    if tag = name then (optionalText tag content).head? else none := by
  rw [← List.head?_filter, filter_optionalText]
  split <;> rfl

@[simp] theorem find?_listOf (tag name : String) (es : List Element) : (listOf tag es).find? (·.name == name) =
    if tag = name then (listOf tag es).head? else none := by
  rw [← List.head?_filter, filter_listOf]
  split <;> rfl

theorem text?_ofText (name content : String) :
    (ofText name content).text? = if content = "" then none else some content := by
  unfold ofText text?
  by_cases h : content = "" <;> simp [h, Node.ownText?, String.join]

theorem childText_of_ofText {e : Element} {name content : String} (h : e.child? name = some (ofText name content))
    (hp : IsPlainText content) : e.childText name = content := by
  unfold childText
  rw [h, Option.bind_some, text?_ofText]
  split
  · rename_i he
    exact he.symm
  · exact hp.trimmed

theorem childText_of_optionalText {e : Element} {name content : String}
    (h : e.child? name = (optionalText name content).head?) (hp : IsPlainText content) :
    e.childText name = content := by
  by_cases hc : content = ""
  · unfold childText
    rw [h, optionalText, if_pos hc, hc]
    rfl
  · refine childText_of_ofText ?_ hp
    rw [h, optionalText, if_neg hc]
    rfl

section

variable {α : Type} {e : Element} {list item : String} {xs : List α} {f : α → Element}

theorem listed_of_listOf (h : e.child? list = (listOf list (xs.map f)).head?) (hi : ∀ x, (f x).name = item) :
    e.listed list item = xs.map f := by
  unfold listed
  rw [h, childrenNamed_head_listOf (List.forall_mem_map.2 fun x _ => hi x)]

theorem listed_of_ofElements (h : e.child? list = some (ofElements list (xs.map f)))
    (hi : ∀ x, (f x).name = item) : e.listed list item = xs.map f := by
  unfold listed
  rw [h, Option.map_some, Option.getD_some, childrenNamed_ofElements, List.filter_eq_self]
  exact List.forall_mem_map.2 fun x _ => beq_iff_eq.2 (hi x)

end

/-! ## Records of texts -/

/-- A record whose fields are texts. -/
def ofFields (tag : String) (names texts : List String) : Element :=
  ofElements tag (List.zipWith ofText names texts)

variable {tag : String} {names texts : List String}

theorem legible_ofFields (ht : IsUnqualified tag) (hn : ∀ n ∈ names, IsUnqualified n)
    (h : ∀ t ∈ texts, IsPlainText t) : Legible (ofFields tag names texts).toNode := by
  refine legible_ofElements ht fun e he => ?_
  rw [← List.map_uncurry_zip_eq_zipWith] at he
  obtain ⟨⟨n, t⟩, hmem, rfl⟩ := List.mem_map.1 he
  obtain ⟨hname, htext⟩ := List.of_mem_zip hmem
  exact legible_ofText (hn n hname) (h t htext)

theorem find?_zipWith_ofText (hn : names.Nodup) {name text : String} (h : (name, text) ∈ names.zip texts) :
    (List.zipWith ofText names texts).find? (·.name == name) = some (ofText name text) := by
  induction names generalizing texts with
  | nil => cases h
  | cons n names ih =>
    cases texts with
    | nil => cases h
    | cons t texts =>
      rw [List.zipWith_cons_cons, List.find?_cons]
      rcases List.mem_cons.1 h with he | h
      · cases he
        simp
      · -- the names differ, so that the field is one of those behind
        obtain ⟨hnew, hnodup⟩ := List.nodup_cons.1 hn
        have hne : (n == name) = false := beq_eq_false_iff_ne.2 fun he => hnew (he ▸ (List.of_mem_zip h).1)
        rw [ofText_name, hne]
        exact ih hnodup h

/-- The fields of a record are found as they were written. -/
theorem map_childText_ofFields (tag : String) (hn : names.Nodup) (h : ∀ t ∈ texts, IsPlainText t)
    (hl : names.length = texts.length) : names.map (ofFields tag names texts).childText = texts := by
  have hfield : ∀ f ∈ names.zip texts, (ofFields tag names texts).childText f.1 = f.2 := by
    intro f hf
    refine childText_of_ofText ?_ (h f.2 (List.of_mem_zip hf).2)
    rw [ofFields, child?_ofElements, find?_zipWith_ofText hn hf]
  calc names.map (ofFields tag names texts).childText
      = ((names.zip texts).map Prod.fst).map (ofFields tag names texts).childText := by
        rw [List.map_fst_zip (Nat.le_of_eq hl)]
    _ = (names.zip texts).map Prod.snd := by
        rw [List.map_map]
        exact List.map_congr_left hfield
    _ = texts := List.map_snd_zip (Nat.le_of_eq hl.symm)

end Element

end Upnp.Xml
