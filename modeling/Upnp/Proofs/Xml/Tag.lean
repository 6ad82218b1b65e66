import Mathlib.Data.List.Nodup
import Mathlib.Data.List.TakeWhile
import Mathlib.Tactic.ByContra
import Upnp.Xml.Tag
import Upnp.Proofs.Markup.Escape

/-
Written tags are read as the tags they were written for. Names without qualifier are read up to the
first character that is in no name, escaped values stand for what they were escaped from, and the
attributes of a tag are read in their order.
-/

namespace Upnp.Xml

open Upnp.Text Upnp.Markup

/-! ## Names -/

/-- The text is read as a name, and one without qualifier. -/
def IsUnqualified (name : String) : Prop :=
  QualifiedName.read? name.toList = some (⟨none, name.toList⟩, [])

instance (name : String) : Decidable (IsUnqualified name) :=
  inferInstanceAs (Decidable (_ = _))

namespace IsUnqualified

variable {name : String}

theorem ofChars? (h : IsUnqualified name) : (∀ c ∈ name.toList, isNameChar c = true) ∧
    QualifiedName.ofChars? name.toList = some ⟨none, name.toList⟩ := by
  unfold IsUnqualified QualifiedName.read? at h
  obtain ⟨n, hn, he⟩ := Option.map_eq_some_iff.1 h
  simp only [Prod.mk.injEq] at he
  obtain ⟨rfl, hdrop⟩ := he
  have hall : ∀ c ∈ name.toList, isNameChar c = true := List.dropWhile_eq_nil_iff.1 hdrop
  refine ⟨hall, ?_⟩
  rwa [List.takeWhile_eq_self_iff.2 hall] at hn

theorem isName (h : IsUnqualified name) : Markup.isName name.toList = true := by
  obtain ⟨hall, hchars⟩ := h.ofChars?
  cases hn : name.toList with
  | nil =>
    rw [hn] at hchars
    simp [QualifiedName.ofChars?] at hchars
  | cons c cs =>
    rw [hn] at hall hchars
    have hstart : isNameStart c = true := by
      by_contra hc
      simp [QualifiedName.ofChars?, hc] at hchars
    simp only [Markup.isName, hstart, Bool.true_and, List.all_eq_true]
    exact fun d hd => hall d (List.mem_cons_of_mem c hd)

/-- A name ends at a character that is in no name. -/
theorem read? (h : IsUnqualified name) {rest : List Char} (hr : ∀ c, rest.head? = some c → isNameChar c = false) :
    QualifiedName.read? (name.toList ++ rest) = some (⟨none, name.toList⟩, rest) := by
  obtain ⟨hall, hchars⟩ := h.ofChars?
  obtain ⟨htake, hdrop⟩ := takeWhile_append_of_head hall hr
  unfold QualifiedName.read?
  rw [htake, hdrop, hchars]
  rfl

end IsUnqualified

/-! ## Values -/

/-- The name of a reference is gathered up to the semicolon that ends it. -/
theorem expandFrom?_reference (d : Declared) {name : List Char} (hn : ';' ∉ name) (before cs : List Char) :
    d.expandFrom? (some before) (name ++ ';' :: cs) =
      (d.textOf? (before ++ name)).bind fun text => (d.expandFrom? none cs).map (text ++ ·) := by
  induction name generalizing before with
  | nil =>
    rw [List.nil_append, Declared.expandFrom?, if_pos rfl, List.append_nil]
    cases d.textOf? before <;> cases d.expandFrom? none cs <;> rfl
  | cons c name ih =>
    simp only [List.mem_cons, not_or] at hn
    rw [List.cons_append, Declared.expandFrom?, if_neg (fun he => hn.1 he.symm), ih hn.2]
    simp

theorem charOf?_of_referenced? {name : List Char} {c : Char} (h : referenced? name = some c)
    (hc : isXmlChar c = true) : Declared.charOf? {} name = some c := by
  unfold referenced? at h
  unfold Declared.charOf?
  split at h
  · rename_i number
    change charOfNumber? number = some c at h
    simp [h, Declared.allowsChar, hc]
  · rename_i hnumber
    simpa [hnumber] using h

/-- An escaped value stands for what it was escaped from. -/
theorem expand?_escapes {v cs : List Char} (h : Escapes v cs) (hv : ∀ c ∈ v, isXmlChar c = true) :
    Declared.expand? {} cs = some v := by
  unfold Declared.expand?
  induction h with
  | nil => rfl
  | @cons c out v cs hc _ ih =>
    have hchar := hv c List.mem_cons_self
    have htail := ih fun d hd => hv d (List.mem_cons_of_mem c hd)
    cases hc with
    | plain hne =>
      have hplain : Declared.allowsPlainChar {} c = true := hchar
      rw [List.singleton_append, Declared.expandFrom?, if_neg hne.2, if_neg (by simp [hne.1, hplain]), htail]
      rfl
    | reference name hn hr =>
      have hend : ';' ∉ name := fun hm => (hn ';' hm).1 rfl
      have htext : Declared.textOf? {} name = some [c] := by
        simp [Declared.textOf?, charOf?_of_referenced? hr hchar]
      have happ : '&' :: (name ++ [';']) ++ cs = '&' :: (name ++ ';' :: cs) := by simp
      rw [happ, Declared.expandFrom?, if_pos rfl, expandFrom?_reference _ hend, List.nil_append, htext, htail]
      rfl

theorem readValue?_escapeValue {v : List Char} (hv : ∀ c ∈ v, isXmlChar c = true) (rest : List Char) :
    readValue? {} ("=\"".toList ++ (escapeValue v ++ '"' :: rest)) = some (v, rest) := by
  have hspan := takeWhile_append_of_head (p := (· != '"')) (a := escapeValue v) (b := '"' :: rest)
    (fun c hc => bne_iff_ne.2 fun he => quote_not_mem_escapeValue v (he ▸ hc)) fun c hc => by
      cases hc
      rfl
  have hequals : ("=\"".toList ++ (escapeValue v ++ '"' :: rest)).dropWhile isSpace =
      '=' :: '"' :: (escapeValue v ++ '"' :: rest) := rfl
  have hquote : ('"' :: (escapeValue v ++ '"' :: rest)).dropWhile isSpace = '"' :: (escapeValue v ++ '"' :: rest) := rfl
  unfold readValue?
  rw [hequals]
  simp only [hquote, hspan.1, hspan.2, expand?_escapes (escapes_escapeValue v) hv, Option.map_some, true_or, if_true]

/-! ## Attributes -/

/-- Attributes that are read as what they are: their names have no qualifier and are not given
twice, their values hold characters of documents only, and a namespace that they declare may be
declared. -/
structure LegibleAttributes (attributes : List (String × String)) : Prop where
  name : ∀ a ∈ attributes, IsUnqualified a.1
  value : ∀ a ∈ attributes, a.2.toList.all isXmlChar = true
  nodup : (attributes.map Prod.fst).Nodup
  namespaces : ∀ a ∈ attributes, a.1 = "xmlns" →
    a.2 ∉ ["xml", "xmlns", Xml.xmlNamespace, xmlnsNamespace]

/-- The attribute that a name and value are read as. -/
def unqualified (a : String × String) : Attribute :=
  (⟨none, a.1.toList⟩, a.2.toList)

theorem length_le_writeAttributes (attributes : List (String × String)) :
    attributes.length ≤ (writeAttributes attributes).length := by
  induction attributes with
  | nil => exact Nat.zero_le _
  | cons a attributes ih =>
    have hcons : writeAttributes (a :: attributes) = writeAttribute a.1 a.2 ++ writeAttributes attributes := rfl
    have hpos : 0 < (writeAttribute a.1 a.2).length := by simp [writeAttribute]
    rw [hcons, List.length_append, List.length_cons]
    omega

/-- An attribute is read behind the white space in front of it. -/
theorem readAttributes?_writeAttribute {n v : String} (hn : IsUnqualified n) (hv : ∀ c ∈ v.toList, isXmlChar c = true)
    (fuel : Nat) (rest : List Char) : readAttributes? {} (fuel + 1) (writeAttribute n v ++ rest) =
      (readAttributes? {} fuel rest).map fun r => (unqualified (n, v) :: r.1, r.2) := by
  have hwrite : writeAttribute n v ++ rest =
      ' ' :: (n.toList ++ ("=\"".toList ++ (escapeValue v.toList ++ '"' :: rest))) := by
    simp [writeAttribute]
  have hvalue := readValue?_escapeValue hv rest
  have hequals : ∀ c, ("=\"".toList ++ (escapeValue v.toList ++ '"' :: rest)).head? = some c → isNameChar c = false := by
    intro c hc
    cases hc
    decide
  rw [hwrite]
  generalize "=\"".toList ++ (escapeValue v.toList ++ '"' :: rest) = behind at hvalue hequals ⊢
  have hdrop : (' ' :: (n.toList ++ behind)).dropWhile isSpace = n.toList ++ behind := by
    rw [List.dropWhile_cons_of_pos (by rfl)]
    exact dropWhile_of_head (isSpace_head hn.isName)
  have hstart : (n.toList ++ behind).head?.any isNameStart = true := by
    have hname := hn.isName
    obtain ⟨d, ds, hd⟩ := List.exists_cons_of_ne_nil (ne_nil_of_isName hname)
    rw [hd, isName, Bool.and_eq_true] at hname
    rw [hd]
    exact hname.1
  rw [readAttributes?, hdrop, hstart, if_pos rfl, if_neg (by simp)]
  simp only [hn.read? hequals, hvalue, Option.bind_eq_bind, Option.bind_some]
  cases readAttributes? {} fuel rest <;> rfl

/-- What is not a name's character and not white space ends the attributes of a tag. -/
theorem readAttributes?_written {attributes : List (String × String)} (h : LegibleAttributes attributes)
    (rest : List Char) (hr : ∀ c, (rest.dropWhile isSpace).head? = some c → isNameStart c = false)
    (fuel : Nat) (hf : attributes.length < fuel) :
    readAttributes? {} fuel (writeAttributes attributes ++ rest) =
      some (attributes.map unqualified, rest.dropWhile isSpace) := by
  induction attributes generalizing fuel with
  | nil =>
    obtain ⟨fuel, rfl⟩ : ∃ f, fuel = f + 1 := ⟨fuel - 1, by omega⟩
    have hend : ((rest.dropWhile isSpace).head?.any isNameStart) = false := by
      cases hc : (rest.dropWhile isSpace).head? with
      | none => rfl
      | some c => exact hr c hc
    show readAttributes? {} (fuel + 1) rest = _
    rw [readAttributes?, hend]
    rfl
  | cons a attributes ih =>
    obtain ⟨fuel, rfl⟩ : ∃ f, fuel = f + 1 := ⟨fuel - 1, by simp at hf; omega⟩
    have htail : LegibleAttributes attributes :=
      ⟨fun b hb => h.name b (List.mem_cons_of_mem _ hb), fun b hb => h.value b (List.mem_cons_of_mem _ hb),
        (List.nodup_cons.1 h.nodup).2, fun b hb => h.namespaces b (List.mem_cons_of_mem _ hb)⟩
    have hwrite : writeAttributes (a :: attributes) ++ rest =
        writeAttribute a.1 a.2 ++ (writeAttributes attributes ++ rest) := by
      simp [writeAttributes]
    rw [hwrite, readAttributes?_writeAttribute (h.name a List.mem_cons_self)
      (List.all_eq_true.1 (h.value a List.mem_cons_self)), ih htail fuel (by simpa using hf)]
    rfl

/-! ## Tags -/

/-- The attributes that declare no namespace. -/
def plainAttributes (attributes : List (String × String)) : List (String × String) :=
  attributes.filter (·.1 != "xmlns")

theorem plainAttributes_of_ne {attributes : List (String × String)} (h : ∀ a ∈ attributes, a.1 ≠ "xmlns") :
    plainAttributes attributes = attributes :=
  List.filter_eq_self.2 fun a ha => bne_iff_ne.2 (h a ha)

theorem roleOf_unqualified {a : String × String}
    (h : a.1 = "xmlns" → a.2 ∉ ["xml", "xmlns", Xml.xmlNamespace, xmlnsNamespace]) :
    roleOf (unqualified a) = if a.1 = "xmlns" then .setsDefault else .plain := by
  have hname : (unqualified a).1 = ⟨none, "xmlns".toList⟩ ↔ a.1 = "xmlns" := by
    simp [unqualified, ← String.toList_inj]
  have hvalue : String.ofList (unqualified a).2 = a.2 := String.ofList_toList
  unfold roleOf
  simp only [hname, hvalue]
  rw [if_neg (by simp [unqualified])]
  by_cases hn : a.1 = "xmlns"
  · have hallowed : ["xml", "xmlns", Xml.xmlNamespace, xmlnsNamespace].contains a.2 = false := by
      rw [List.contains_eq_mem]
      exact decide_eq_false (h hn)
    rw [if_pos hn, if_pos hn, hallowed, if_neg Bool.false_ne_true]
  · rw [if_neg hn, if_neg hn]

namespace Tag

/-- The tag that a name and attributes are written as. -/
def ofWritten (name : String) (attributes : List (String × String)) : Tag :=
  ⟨⟨none, name.toList⟩, attributes.map unqualified⟩

variable {name : String} {attributes : List (String × String)}

theorem plainAttributes_ofWritten (h : LegibleAttributes attributes) :
    (ofWritten name attributes).plainAttributes = (Xml.plainAttributes attributes).map unqualified := by
  unfold plainAttributes ofWritten Xml.plainAttributes
  rw [List.filter_map]
  congr 1
  refine List.filter_congr fun a ha => ?_
  rw [Function.comp, roleOf_unqualified (h.namespaces a ha)]
  by_cases hn : a.1 = "xmlns" <;> simp [hn]

theorem hasGoodAttributes_ofWritten (h : LegibleAttributes attributes) :
    (ofWritten name attributes).hasGoodAttributes = true := by
  have hroles : (ofWritten name attributes).attributes.all (roleOf · != .forbidden) = true := by
    rw [List.all_eq_true]
    intro b hb
    obtain ⟨a, ha, rfl⟩ := List.mem_map.1 hb
    rw [roleOf_unqualified (h.namespaces a ha)]
    by_cases hn : a.1 = "xmlns" <;> simp [hn]
  have hnames : ((ofWritten name attributes).plainAttributes.map Prod.fst).Nodup := by
    have hsub : ((Xml.plainAttributes attributes).map Prod.fst).Nodup :=
      h.nodup.sublist (List.Sublist.map _ List.filter_sublist)
    rw [plainAttributes_ofWritten h, List.map_map]
    rw [show Prod.fst ∘ unqualified = (fun n : String => (⟨none, n.toList⟩ : QualifiedName)) ∘ Prod.fst from rfl,
      ← List.map_map]
    refine hsub.map (f := fun n : String => (⟨none, n.toList⟩ : QualifiedName)) fun m n he => ?_
    simpa [String.toList_inj] using he
  simp [hasGoodAttributes, hroles, hnames]

theorem isBound_ofWritten (h : LegibleAttributes attributes) (outer : List (List Char)) :
    (ofWritten name attributes).isBound outer = true := by
  unfold isBound
  rw [plainAttributes_ofWritten h]
  simp [ofWritten, unqualified]

/-- Names that are not given twice keep all their values. -/
theorem foldr_unqualified {as : List (String × String)} (h : (as.map Prod.fst).Nodup) :
    (as.map unqualified).foldr (fun a out =>
      let name := String.ofList a.1.base
      if (out.lookup name).isSome then out else (name, String.ofList a.2) :: out) [] = as := by
  induction as with
  | nil => rfl
  | cons a as ih =>
    rw [List.map_cons, List.nodup_cons] at h
    have hnew : as.lookup a.1 = none := by
      rw [List.lookup_eq_none_iff]
      intro b hb
      exact bne_iff_ne.2 fun he => h.1 (he ▸ List.mem_map_of_mem hb)
    have hname : String.ofList (unqualified a).1.base = a.1 := String.ofList_toList
    have hvalue : String.ofList (unqualified a).2 = a.2 := String.ofList_toList
    rw [List.map_cons, List.foldr_cons, ih h.2]
    simp only [hname, hvalue, hnew, Option.isSome_none, Bool.false_eq_true, if_false]

theorem attributesByName_ofWritten (h : LegibleAttributes attributes) :
    (ofWritten name attributes).attributesByName = Xml.plainAttributes attributes := by
  unfold attributesByName
  rw [plainAttributes_ofWritten h]
  exact foldr_unqualified (h.nodup.sublist (List.Sublist.map _ List.filter_sublist))

/-! ### Reading them -/

/-- Behind the attributes stands what ends the tag. -/
theorem read?_written (hn : IsUnqualified name) (ha : LegibleAttributes attributes) {close : List Char}
    {isEmpty : Bool} (hc : close = ['>'] ∧ isEmpty = false ∨ close = " />".toList ∧ isEmpty = true) (rest : List Char) :
    Tag.read? {} (tagChars name attributes ++ (close ++ rest)) =
      some (ofWritten name attributes, isEmpty, rest) := by
  have hname : ∀ c, (writeAttributes attributes ++ (close ++ rest)).head? = some c → isNameChar c = false := by
    intro c hhead
    cases attributes with
    | nil => rcases hc with ⟨rfl, -⟩ | ⟨rfl, -⟩ <;> cases hhead <;> decide
    | cons a attributes =>
      cases hhead
      decide
  have hend : ∀ c, ((close ++ rest).dropWhile isSpace).head? = some c → isNameStart c = false := by
    intro c hhead
    rcases hc with ⟨rfl, -⟩ | ⟨rfl, -⟩ <;> cases hhead <;> decide
  have hlength : attributes.length < (writeAttributes attributes ++ (close ++ rest)).length + 1 := by
    have hle := length_le_writeAttributes attributes
    simp only [List.length_append]
    omega
  unfold Tag.read? tagChars
  rw [List.append_assoc]
  simp only [hn.read? hname, readAttributes?_written ha _ hend _ hlength, Option.bind_eq_bind, Option.bind_some]
  have hgood : (ofWritten name attributes).hasGoodAttributes = true := hasGoodAttributes_ofWritten ha
  unfold ofWritten at hgood
  rcases hc with ⟨rfl, rfl⟩ | ⟨rfl, rfl⟩ <;>
    simp [hgood, QualifiedName.isElementName, ofWritten, isSpace]

end Tag

theorem readClosing?_written {name : String} (hn : IsUnqualified name) (rest : List Char) :
    readClosing? (name.toList ++ '>' :: rest) = some (⟨none, name.toList⟩, rest) := by
  have hname : ∀ c, ('>' :: rest).head? = some c → isNameChar c = false := by
    intro c hc
    cases hc
    decide
  unfold readClosing?
  simp only [hn.read? hname, Option.bind_eq_bind, Option.bind_some]
  rfl

end Upnp.Xml
