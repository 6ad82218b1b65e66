import Upnp.Proofs.Markup.Lexeme

/-
Balanced lexemes. Where every element that is opened is closed, nothing is cut off, and the content
of an element is passed over as a whole when its end is looked for.
-/

namespace Upnp.Markup

/-- The token neither opens nor closes an element and is well formed. -/
def Token.isLeaf : Token → Bool
  | .opening _ _ => false
  | .closing _ => false
  | .malformed => false
  | _ => true

/-- Every element that is opened is closed, and in order. -/
inductive Balanced : List Lexeme → Prop
  | nil : Balanced []
  | leaf {x : Lexeme} {ls : List Lexeme} (hx : x.token.isLeaf = true) (h : Balanced ls) : Balanced (x :: ls)
  | element {name attributes s e : List Char} {inner ls : List Lexeme} (hi : Balanced inner) (h : Balanced ls) :
    Balanced (⟨.opening name attributes, s⟩ :: (inner ++ ⟨.closing name, e⟩ :: ls))

theorem Balanced.append {ls ms : List Lexeme} (hl : Balanced ls) (hm : Balanced ms) : Balanced (ls ++ ms) := by
  induction hl with
  | nil => exact hm
  | leaf hx _ ih => exact .leaf hx ih
  | element hi _ _ ih =>
    rw [List.cons_append, List.append_assoc, List.cons_append]
    exact .element hi ih

theorem Balanced.leaves {ls : List Lexeme} (h : ∀ x ∈ ls, x.token.isLeaf = true) : Balanced ls := by
  induction ls with
  | nil => exact .nil
  | cons x ls ih => exact .leaf (h x List.mem_cons_self) (ih fun y hy => h y (List.mem_cons_of_mem x hy))

/-! ## Checking -/

theorem checkNesting_leaf {x : Lexeme} (hx : x.token.isLeaf = true) (names : List (List Char)) (ls : List Lexeme) :
    checkNesting names (x :: ls) = x :: checkNesting names ls := by
  obtain ⟨t, s⟩ := x
  cases t <;> first | rfl | cases hx

theorem checkNesting_opening (name attributes s : List Char) (names : List (List Char)) (ls : List Lexeme) :
    checkNesting names (⟨.opening name attributes, s⟩ :: ls) =
      ⟨.opening name attributes, s⟩ :: checkNesting (name :: names) ls :=
  rfl

theorem checkNesting_closing (name e : List Char) (names : List (List Char)) (ls : List Lexeme) :
    checkNesting (name :: names) (⟨.closing name, e⟩ :: ls) = ⟨.closing name, e⟩ :: checkNesting names ls :=
  if_pos rfl

/-- Balanced lexemes pass the check and leave the open elements as they are. -/
theorem Balanced.checkNesting {ls : List Lexeme} (h : Balanced ls) (names : List (List Char)) (rest : List Lexeme) :
    checkNesting names (ls ++ rest) = ls ++ checkNesting names rest := by
  induction h generalizing names rest with
  | nil => rfl
  | leaf hx _ ih => rw [List.cons_append, checkNesting_leaf hx, ih, List.cons_append]
  | element _ _ ihi ih =>
    rw [List.cons_append, List.append_assoc, List.cons_append, checkNesting_opening, ihi, checkNesting_closing, ih,
      List.cons_append, List.append_assoc, List.cons_append]

theorem withoutMark_of_ne {c : Char} {cs : List Char} (h : c ≠ byteOrderMark) : withoutMark (c :: cs) = c :: cs :=
  if_neg h

theorem withoutMark_suffix (cs : List Char) : withoutMark cs <:+ cs := by
  cases cs with
  | nil => exact List.suffix_refl []
  | cons c cs =>
    by_cases h : c = byteOrderMark
    · rw [show withoutMark (c :: cs) = cs from if_pos h]
      exact List.suffix_cons c cs
    · simpa only [withoutMark_of_ne h] using List.suffix_refl (c :: cs)

/-- Balanced lexemes of a text, but for a byte order mark, are its lexemes. -/
theorem lexemes_eq {cs : List Char} {ls : List Lexeme} (hl : Lexed (withoutMark cs) [] ls) (hb : Balanced ls) :
    lexemes cs = ls := by
  have hscan : scan cs.length (withoutMark cs) = ls := by
    rw [← hl.lex_self]
    exact scan_eq_scan (withoutMark_suffix cs).length_le (Nat.le_refl _)
  have hcheck := hb.checkNesting [] []
  unfold lexemes
  rw [hscan]
  rwa [List.append_nil, Markup.checkNesting, List.append_nil] at hcheck

/-! ## The content of an element -/

theorem innerSource?_leaf {x : Lexeme} (hx : x.token.isLeaf = true) (name : List Char) (depth : Nat)
    (ls : List Lexeme) : innerSource? name depth (x :: ls) = (innerSource? name depth ls).map (x.source ++ ·) := by
  obtain ⟨t, s⟩ := x
  cases t <;> first | rfl | cases hx

theorem innerSource?_opening (n attributes s name : List Char) (depth : Nat) (ls : List Lexeme) :
    innerSource? name depth (⟨.opening n attributes, s⟩ :: ls) =
      (innerSource? name (if n = name then depth + 1 else depth) ls).map (s ++ ·) :=
  rfl

theorem innerSource?_closing (n e name : List Char) (depth : Nat) (ls : List Lexeme) :
    innerSource? name (if n = name then depth + 1 else depth) (⟨.closing n, e⟩ :: ls) =
      (innerSource? name depth ls).map (e ++ ·) := by
  by_cases h : n = name
  · rw [if_pos h]
    exact if_pos h
  · rw [if_neg h]
    exact if_neg h

theorem innerSource?_end (name e : List Char) (ls : List Lexeme) :
    innerSource? name 0 (⟨.closing name, e⟩ :: ls) = some [] :=
  if_pos rfl

/-- Balanced lexemes are passed over with their sources. -/
theorem Balanced.innerSource? {ls : List Lexeme} (h : Balanced ls) (name : List Char) (depth : Nat)
    (rest : List Lexeme) : innerSource? name depth (ls ++ rest) =
      (innerSource? name depth rest).map (ls.flatMap Lexeme.source ++ ·) := by
  induction h generalizing depth rest with
  | nil =>
    rw [List.nil_append]
    exact Option.map_id'.symm
  | leaf hx _ ih =>
    rw [List.cons_append, innerSource?_leaf hx, ih, Option.map_map, List.flatMap_cons]
    exact congrArg (fun f => Option.map f _) (funext fun cs => (List.append_assoc ..).symm)
  | element _ _ ihi ih =>
    rw [List.cons_append, List.append_assoc, List.cons_append, innerSource?_opening, ihi, innerSource?_closing, ih]
    simp only [Option.map_map, List.flatMap_cons, List.flatMap_append]
    exact congrArg (fun f => Option.map f _) (funext fun cs => by simp [Function.comp])

/-- The content of an element is found in front of its closing tag. -/
theorem Balanced.innerSource?_closing {ls : List Lexeme} (h : Balanced ls) (name e : List Char)
    (rest : List Lexeme) :
    Markup.innerSource? name 0 (ls ++ ⟨.closing name, e⟩ :: rest) = some (ls.flatMap Lexeme.source) := by
  rw [h.innerSource?, innerSource?_end, Option.map_some, List.append_nil]

end Upnp.Markup
