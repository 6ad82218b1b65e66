import Upnp.Description.Error
import Upnp.Description.Version
import Upnp.Proofs.Decimal.Integer
import Upnp.Proofs.Xml.Fields

/-
What the descriptions of devices and of services share. Their roots declare a namespace, which reading
drops, and the version stands in a child of its own.
-/

namespace Upnp

open Upnp.Decimal Upnp.Text Upnp.Xml

/-! ## Roots -/

/-- A written root is read as the element without its namespace. -/
theorem readDocument_write {name space : String} {es : List Element} (hn : IsUnqualified name)
    (hs : LegibleAttributes [("xmlns", space)]) (h : ∀ e ∈ es, Legible e.toNode) :
    readDocument name (write { Element.ofElements name es with attributes := [("xmlns", space)] }) =
      .ok (Element.ofElements name es) := by
  have hread := read?_write { Element.ofElements name es with attributes := [("xmlns", space)] } hn hs
    (List.forall_mem_map.2 h)
  unfold readDocument
  rw [hread]
  exact if_pos rfl

/-! ## Versions -/

theorem isPlainText_showInt (n : Nat) : IsPlainText (showInt n) := by
  refine isPlainText_of_forall fun c hc => ?_
  have hdigit := isDigit_of_mem_showInt c hc
  have hrange : 48 ≤ c.toNat ∧ c.toNat ≤ 57 := by
    rw [Char.isDigit, Bool.and_eq_true, decide_eq_true_eq, decide_eq_true_eq] at hdigit
    exact hdigit
  refine ⟨isBlank_of_isDigit hdigit, ?_⟩
  simp only [isXmlChar, Bool.or_eq_true, Bool.and_eq_true, decide_eq_true_eq, bne_iff_ne, beq_iff_eq]
  omega

namespace SpecVersion

/-- Both numbers of the version have 32 bits. -/
def InRange (v : SpecVersion) : Prop :=
  IntRange.unsigned32.contains v.major = true ∧ IntRange.unsigned32.contains v.minor = true

instance (v : SpecVersion) : Decidable v.InRange :=
  inferInstanceAs (Decidable (_ ∧ _))

theorem readNumber_of_childText {e : Element} {name : String} {n : Nat} (h : e.childText name = showInt n)
    (hn : IntRange.unsigned32.contains n = true) : readNumber e name = n := by
  have hle : (n : Int) ≤ IntRange.unsigned32.greatest := by
    rw [IntRange.contains, Bool.and_eq_true] at hn
    exact of_decide_eq_true hn.2
  unfold readNumber readInt? readInt
  rw [h, readIntChars_showInt hle]
  rfl

theorem toElement_eq (v : SpecVersion) : v.toElement =
    .ofFields "specVersion" ["major", "minor"] [showInt v.major, showInt v.minor] :=
  rfl

theorem isPlainText_numbers (v : SpecVersion) : ∀ t ∈ [showInt v.major, showInt v.minor], IsPlainText t := by
  simp only [List.forall_mem_cons]
  exact ⟨isPlainText_showInt _, isPlainText_showInt _, fun _ ht => absurd ht List.not_mem_nil⟩

/-- A root with the written version has the version. -/
theorem ofRoot_of_child? {root : Element} {v : SpecVersion} (h : root.child? "specVersion" = some v.toElement)
    (hv : v.InRange) : ofRoot root = v := by
  have htexts := Element.map_childText_ofFields "specVersion" (by decide : ["major", "minor"].Nodup)
    v.isPlainText_numbers rfl
  simp only [← toElement_eq, List.map_cons, List.cons.injEq] at htexts
  obtain ⟨hmajor, hminor, -⟩ := htexts
  unfold ofRoot ofElement
  rw [h, Option.map_some, Option.getD_some, readNumber_of_childText hmajor hv.1, readNumber_of_childText hminor hv.2]

theorem legible_toElement (v : SpecVersion) : Legible v.toElement.toNode := by
  rw [toElement_eq]
  exact Element.legible_ofFields (by decide) (by decide) v.isPlainText_numbers

end SpecVersion

end Upnp
