import Upnp.Serving.Responder
import Upnp.Proofs.Soap.Call

/-
The action header of a control request. A header is only read when all its octets are visible; then
the name behind its last number sign is the action's, whatever the service type in front of it holds.
-/

namespace Upnp

open Upnp.Text Upnp.Markup Upnp.Xml

/-! ## Visible text -/

/-- Characters that a header can hold to be read at all. -/
def isVisibleChar (c : Char) : Bool :=
  c.toNat == 9 || (32 ≤ c.toNat && c.toNat < 127)

theorem isVisible_encodeChar {c : Char} (h : isVisibleChar c = true) :
    (Utf8.encodeChar c).all Http.isVisible = true := by
  have hc : c.toNat = 9 ∨ (32 ≤ c.toNat ∧ c.toNat < 127) := by
    simpa [isVisibleChar] using h
  have hlt : c.toNat < 256 := by omega
  have hb : (UInt8.ofNat c.toNat).toNat = c.toNat := Utf8.toNat_ofNat_octet hlt
  rw [Utf8.encodeChar_ascii ⟨by omega, by omega⟩ hb, List.all_cons, List.all_nil, Bool.and_true]
  unfold Http.isVisible
  rcases hc with h9 | ⟨hl, hh⟩
  · rw [h9]
    rfl
  · have h32 : (32 : UInt8) ≤ UInt8.ofNat c.toNat := by
      rw [UInt8.le_iff_toNat_le, hb]
      exact hl
    have h127 : UInt8.ofNat c.toNat < 127 := by
      rw [UInt8.lt_iff_toNat_lt, hb]
      exact hh
    simp [h32, h127]

theorem isVisible_encodeChars {cs : List Char} (h : ∀ c ∈ cs, isVisibleChar c = true) :
    (Utf8.encodeChars cs).all Http.isVisible = true := by
  induction cs with
  | nil => rfl
  | cons c cs ih =>
    rw [Utf8.encodeChars_cons, List.all_append, isVisible_encodeChar (h c List.mem_cons_self),
      ih fun d hd => h d (List.mem_cons_of_mem c hd)]
    rfl

/-- The only header of a request is read just when it is visible. -/
theorem header?_single (name method path : String) (value body : Utf8.Octets) :
    Http.Request.header? ⟨method, path, [(name, value)], body⟩ name =
      if value.all Http.isVisible then some (Utf8.decodeLossy value) else none := by
  have heq : eqIgnoringAsciiCase name name = true := by
    unfold eqIgnoringAsciiCase
    exact beq_self_eq_true _
  unfold Http.Request.header?
  simp only [List.find?_cons, heq, Option.bind_some]

/-- A visible header is read as it was written. -/
theorem header?_visible {value : String} (h : ∀ c ∈ value.toList, isVisibleChar c = true) (name method path : String)
    (body : Utf8.Octets) :
    Http.Request.header? ⟨method, path, [(name, Utf8.encode value)], body⟩ name = some value := by
  have hall : (Utf8.encode value).all Http.isVisible = true := isVisible_encodeChars h
  rw [header?_single, if_pos hall, Utf8.decodeLossy_encode]

/-! ## The name in a header -/

theorem trim_quoted (s : String) : trim ("\"" ++ s ++ "\"") = "\"" ++ s ++ "\"" := by
  have hs : ("\"" ++ s ++ "\"").toList = '"' :: (s.toList ++ ['"']) := by
    simp [String.toList_append]
  rw [← String.toList_inj, trim_toList, hs]
  refine trimChars_of_ends (fun c hc => ?_) fun c hc => ?_
  · cases hc
    decide
  · rw [← List.cons_append, List.getLast?_concat] at hc
    cases hc
    decide

theorem splitTextLast?_append {c : Char} {name : List Char} (h : c ∉ name) (front : List Char) :
    splitTextLast? c (String.ofList (front ++ c :: name)) = some (String.ofList front, String.ofList name) := by
  have hno : ¬ [c] <:+: name.reverse := fun hi => h (List.mem_reverse.1 (hi.subset (List.mem_singleton_self c)))
  have hrev : (front ++ c :: name).reverse = name.reverse ++ ([c] ++ front.reverse) := by simp
  unfold splitTextLast?
  rw [String.toList_ofList, hrev, splitOnce?_append (unbordered_singleton c) (List.cons_ne_nil _ _) hno,
    Option.map_some]
  simp only [List.reverse_reverse]

/-- The header of a control request names its action. -/
theorem actionName?_written {name : String} (hn : isName name.toList = true) (serviceType : String) :
    Responder.actionName? ("\"" ++ (serviceType ++ "#" ++ name) ++ "\"") = some name := by
  have hquote : '"' ∉ name.toList := not_mem_of_isName hn (by decide)
  have hsharp : '#' ∉ name.toList := not_mem_of_isName hn (by decide)
  have hne : name ≠ "" := fun he => ne_nil_of_isName hn (by rw [he]; rfl)
  have hs : ("\"" ++ (serviceType ++ "#" ++ name) ++ "\"").toList =
      ('"' :: serviceType.toList) ++ '#' :: (name.toList ++ ['"']) := by
    simp [String.toList_append]
  -- quotes are taken off in front of the type, but not beyond the number sign
  obtain ⟨t, ht⟩ := dropWhile_append_of_head (p := (· == '"')) (a := '"' :: serviceType.toList)
    (b := '#' :: (name.toList ++ ['"'])) fun c hc => by cases hc; rfl
  have hend : dropTrailing (· == '"') (t ++ '#' :: (name.toList ++ ['"'])) = t ++ '#' :: name.toList := by
    obtain ⟨as, c, hc⟩ : ∃ as c, name.toList = as ++ [c] :=
      ⟨_, _, (List.dropLast_concat_getLast (ne_nil_of_isName hn)).symm⟩
    have hcq : (c == '"') = false := beq_eq_false_iff_ne.2 fun he => hquote (by rw [hc, he]; simp)
    have hrev : (t ++ '#' :: (name.toList ++ ['"'])).reverse =
        '"' :: c :: (as.reverse ++ ('#' :: t.reverse)) := by rw [hc]; simp
    unfold dropTrailing
    rw [hrev, List.dropWhile_cons, if_pos (by decide), List.dropWhile_cons, hcq, if_neg Bool.false_ne_true, hc]
    simp
  -- the name holds no quote, so those at the end are taken off only as far as the name
  have htrim : trimMatches '"' ("\"" ++ (serviceType ++ "#" ++ name) ++ "\"") =
      String.ofList (t ++ '#' :: name.toList) := by
    unfold trimMatches
    rw [hs, ht, hend]
  unfold Responder.actionName?
  rw [trim_quoted, htrim, splitTextLast?_append hsharp, String.ofList_toList]
  simp only [if_neg hne]

end Upnp
