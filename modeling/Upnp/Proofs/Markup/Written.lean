import Upnp.Proofs.Markup.Escape
import Upnp.Proofs.Markup.Nesting

/-
Written trees are lexed as what they were written from. The lexemes of a tree follow its shape, with
the line breaks that the writer puts in; they are balanced and their sources make up the text.
-/

namespace Upnp.Markup

open Upnp.Text Upnp.Xml

/-! ## Equations of the writer -/

theorem write_element (depth : Nat) (name : String) (attributes : List (String × String)) (children : List Node) :
    (Node.element name attributes children).write depth =
      if children.isEmpty then ('<' :: name.toList ++ writeAttributes attributes) ++ " />".toList
      else ('<' :: name.toList ++ writeAttributes attributes) ++ '>' ::
        Node.writeAll (depth + 1) (isInline children) children ++
        (if isInline children then [] else newLine depth) ++ "</".toList ++ name.toList ++ ['>'] := by
  rw [Node.write.eq_def]

theorem write_text (depth : Nat) (content : String) : (Node.text content).write depth = escapeText content.toList := by
  rw [Node.write.eq_def]

theorem writeAll_nil (depth : Nat) (inline_ : Bool) : Node.writeAll depth inline_ [] = [] := by
  rw [Node.writeAll.eq_def]

theorem writeAll_cons (depth : Nat) (inline_ : Bool) (n : Node) (ns : List Node) :
    Node.writeAll depth inline_ (n :: ns) =
      (if inline_ then [] else newLine depth) ++ n.write depth ++ Node.writeAll depth inline_ ns := by
  rw [Node.writeAll.eq_def]

/-! ## Trees that messages are made of -/

/-- The element holds a text alone or such elements, and its names are names. -/
inductive Proper : Node → Prop
  | ofText {name content : String} {attributes : List (String × String)} (hn : isName name.toList = true)
    (ha : ProperAttributes attributes) : Proper (.element name attributes [.text content])
  | ofElements {name : String} {attributes : List (String × String)} {children : List Node}
    (hn : isName name.toList = true) (ha : ProperAttributes attributes) (hc : ∀ c ∈ children, Proper c) :
    Proper (.element name attributes children)

theorem properAttributes_nil : ProperAttributes [] :=
  fun _ h => by cases h

theorem proper_ofText {name : String} (hn : isName name.toList = true) (content : String) :
    Proper (Element.ofText name content).toNode := by
  unfold Element.ofText Element.toNode
  by_cases h : content = ""
  · rw [if_pos h]
    exact .ofElements hn properAttributes_nil fun c hc => by cases hc
  · rw [if_neg h]
    exact .ofText hn properAttributes_nil

/-! ## Their lexemes -/

/-- The break in front of a line. -/
def lineBreak (depth : Nat) : Lexeme :=
  ⟨.text (newLine depth), newLine depth⟩

mutual

/-- The lexemes of a node at a depth. -/
def nodeLexemes (depth : Nat) : Node → List Lexeme
  | .element name attributes children =>
    if children.isEmpty then [emptyTag name attributes]
    else
      openingTag name attributes :: (childLexemes (depth + 1) (isInline children) children ++
        ((if isInline children then [] else [lineBreak depth]) ++ [closingTag name]))
  | n => lex (n.write depth)

def childLexemes (depth : Nat) (inline_ : Bool) : List Node → List Lexeme
  | [] => []
  | n :: ns => (if inline_ then [] else [lineBreak depth]) ++ (nodeLexemes depth n ++ childLexemes depth inline_ ns)

end

/-- The lexemes of an element that holds a text. -/
def textElementLexemes (name content : String) : List Lexeme :=
  if content = "" then [emptyTag name []]
  else openingTag name [] :: (lex (escapeText content.toList) ++ [closingTag name])

theorem nodeLexemes_element (depth : Nat) (name : String) (attributes : List (String × String))
    (children : List Node) : nodeLexemes depth (.element name attributes children) =
      if children.isEmpty then [emptyTag name attributes]
      else
        openingTag name attributes :: (childLexemes (depth + 1) (isInline children) children ++
          ((if isInline children then [] else [lineBreak depth]) ++ [closingTag name])) := by
  rw [nodeLexemes.eq_def]

theorem nodeLexemes_text (depth : Nat) (content : String) :
    nodeLexemes depth (.text content) = lex (escapeText content.toList) := by
  rw [nodeLexemes.eq_def]
  simp only [write_text]

theorem childLexemes_nil (depth : Nat) (inline_ : Bool) : childLexemes depth inline_ [] = [] := by
  rw [childLexemes.eq_def]

theorem childLexemes_cons (depth : Nat) (inline_ : Bool) (n : Node) (ns : List Node) :
    childLexemes depth inline_ (n :: ns) =
      (if inline_ then [] else [lineBreak depth]) ++ (nodeLexemes depth n ++ childLexemes depth inline_ ns) := by
  rw [childLexemes.eq_def]

/-- A text alone is written inline. -/
theorem isInline_text (content : String) : isInline [.text content] = true :=
  rfl

theorem nodeLexemes_textElement (depth : Nat) (name content : String) (attributes : List (String × String)) :
    nodeLexemes depth (.element name attributes [.text content]) =
      openingTag name attributes :: (lex (escapeText content.toList) ++ [closingTag name]) := by
  rw [nodeLexemes_element, isInline_text, childLexemes_cons, childLexemes_nil, nodeLexemes_text, List.append_nil]
  rfl

theorem nodeLexemes_ofText (depth : Nat) (name content : String) :
    nodeLexemes depth (Element.ofText name content).toNode = textElementLexemes name content := by
  unfold Element.ofText Element.toNode textElementLexemes
  by_cases h : content = ""
  · rw [if_pos h, if_pos h, nodeLexemes_element]
    rfl
  · rw [if_neg h, if_neg h, nodeLexemes_textElement]

theorem isInline_of_proper {children : List Node} (h : ∀ c ∈ children, Proper c) : isInline children = false := by
  unfold isInline
  rw [List.any_eq_false]
  intro c hc
  cases h c hc <;> simp [Node.ownText?]

theorem nodeLexemes_ofElements (depth : Nat) {name : String} {attributes : List (String × String)}
    {children : List Node} (hne : children ≠ []) (hc : ∀ c ∈ children, Proper c) :
    nodeLexemes depth (.element name attributes children) =
      openingTag name attributes :: (childLexemes (depth + 1) false children ++ [lineBreak depth, closingTag name]) := by
  rw [nodeLexemes_element, isInline_of_proper hc, List.isEmpty_eq_false_iff.2 hne]
  rfl

/-! ## Their texts -/

theorem write_empty (depth : Nat) (name : String) (attributes : List (String × String)) :
    (Node.element name attributes []).write depth = (emptyTag name attributes).source := by
  unfold emptyTag tagChars
  rw [write_element, List.isEmpty_nil, if_pos rfl, List.cons_append]

theorem write_ofText (depth : Nat) (name content : String) (attributes : List (String × String)) :
    (Node.element name attributes [.text content]).write depth = (openingTag name attributes).source ++
      (escapeText content.toList ++ (closingTag name).source) := by
  unfold openingTag closingTag tagChars
  rw [write_element, isInline_text, writeAll_cons, writeAll_nil, write_text, List.isEmpty_cons]
  simp only [Bool.false_eq_true, if_true, if_false, List.append_assoc, List.cons_append, List.nil_append]

theorem write_ofElements (depth : Nat) {name : String} {attributes : List (String × String)} {children : List Node}
    (hne : children ≠ []) (hc : ∀ c ∈ children, Proper c) :
    (Node.element name attributes children).write depth = (openingTag name attributes).source ++
      (Node.writeAll (depth + 1) false children ++ (newLine depth ++ (closingTag name).source)) := by
  unfold openingTag closingTag tagChars
  rw [write_element, isInline_of_proper hc, List.isEmpty_eq_false_iff.2 hne]
  simp only [Bool.false_eq_true, if_false, List.append_assoc, List.cons_append, List.nil_append]

theorem write_of_proper {n : Node} (h : Proper n) (depth : Nat) : ∃ r, n.write depth = '<' :: r := by
  cases h with
  | ofText hn ha =>
    rw [write_ofText]
    exact ⟨_, List.cons_append⟩
  | @ofElements name attributes children hn ha hc =>
    by_cases hne : children = []
    · rw [hne, write_empty]
      exact ⟨_, List.cons_append⟩
    · rw [write_ofElements depth hne hc]
      exact ⟨_, List.cons_append⟩

/-! ## Lexing them -/

theorem isTextChar_newLine (depth : Nat) : ∀ c ∈ newLine depth, isTextChar c = true := by
  intro c hc
  unfold newLine at hc
  rcases List.mem_cons.1 hc with rfl | hc
  · decide
  · rw [List.eq_of_mem_replicate hc]
    decide

theorem lexed_lineBreak (depth : Nat) {rest : List Char} (hr : EndsText rest) :
    Lexed (newLine depth) rest [lineBreak depth] :=
  lexed_text (List.cons_ne_nil _ _) (isTextChar_newLine depth) hr

theorem lexed_childLexemes {depth : Nat} {rest : List Char} {cs : List Node}
    (hp : ∀ c ∈ cs, Proper c) (hc : ∀ c ∈ cs, ∀ r, Lexed (c.write depth) r (nodeLexemes depth c)) :
    Lexed (Node.writeAll depth false cs) rest (childLexemes depth false cs) := by
  induction cs with
  | nil =>
    rw [writeAll_nil, childLexemes_nil]
    exact Lexed.nil rest
  | cons c cs ih =>
    have htail := ih (fun d hd => hp d (List.mem_cons_of_mem c hd)) fun d hd => hc d (List.mem_cons_of_mem c hd)
    -- the line break is a text of its own, as the child behind it begins with a tag
    obtain ⟨r, hw⟩ := write_of_proper (hp c List.mem_cons_self) depth
    rw [writeAll_cons, childLexemes_cons, if_neg Bool.false_ne_true, if_neg Bool.false_ne_true, List.append_assoc]
    refine (lexed_lineBreak depth ?_).append ((hc c List.mem_cons_self _).append htail)
    rw [hw, List.append_assoc, List.cons_append]
    exact endsText_markup _

/-- A written tree is lexed as its lexemes, whatever stands behind it. -/
theorem lexed_write {n : Node} (h : Proper n) (depth : Nat) (rest : List Char) :
    Lexed (n.write depth) rest (nodeLexemes depth n) := by
  induction h generalizing depth rest with
  | @ofText name content attributes hn ha =>
    rw [write_ofText, nodeLexemes_textElement]
    exact (lexed_openingTag hn ha _).append
      ((lexed_escapeText (endsText_markup _)).append (lexed_closingTag hn rest))
  | @ofElements name attributes children hn ha hc ih =>
    by_cases hne : children = []
    · subst hne
      rw [write_empty, nodeLexemes_element]
      exact lexed_emptyTag hn ha rest
    · rw [write_ofElements depth hne hc, nodeLexemes_ofElements depth hne hc]
      refine (lexed_openingTag hn ha _).append (Lexed.append ?_ ?_)
      · exact lexed_childLexemes hc fun c hm r => ih c hm (depth + 1) r
      · exact (lexed_lineBreak depth (endsText_markup _)).append (lexed_closingTag hn rest)

/-! ## Nesting -/

theorem spells_leaf {ts : List Token} {v : List Char} (h : Spells ts v) : ∀ t ∈ ts, t.isLeaf = true := by
  induction h with
  | nil => simp
  | text cs _ ih =>
    intro t ht
    rcases List.mem_cons.1 ht with rfl | ht
    · rfl
    · exact ih t ht
  | reference hr _ ih =>
    intro t ht
    rcases List.mem_cons.1 ht with rfl | ht
    · rfl
    · exact ih t ht

theorem balanced_lex_escapeText (v : List Char) : Balanced (lex (escapeText v)) :=
  Balanced.leaves fun x hx => spells_leaf (spells_lex_escapeText v) x.token (List.mem_map_of_mem hx)

theorem balanced_lineBreak (depth : Nat) : Balanced [lineBreak depth] :=
  .leaf rfl .nil

/-- An opening tag and a closing tag around balanced lexemes are balanced. -/
theorem Balanced.tags {inner : List Lexeme} (h : Balanced inner) (name : String)
    (attributes : List (String × String)) : Balanced (openingTag name attributes :: (inner ++ [closingTag name])) :=
  .element h .nil

theorem balanced_childLexemes {depth : Nat} {cs : List Node} (hc : ∀ c ∈ cs, Balanced (nodeLexemes depth c)) :
    Balanced (childLexemes depth false cs) := by
  induction cs with
  | nil =>
    rw [childLexemes_nil]
    exact .nil
  | cons c cs ih =>
    rw [childLexemes_cons, if_neg Bool.false_ne_true]
    exact (balanced_lineBreak depth).append
      ((hc c List.mem_cons_self).append (ih fun d hd => hc d (List.mem_cons_of_mem c hd)))

/-- The lexemes of a written tree are balanced. -/
theorem balanced_nodeLexemes {n : Node} (h : Proper n) (depth : Nat) : Balanced (nodeLexemes depth n) := by
  induction h generalizing depth with
  | ofText hn ha =>
    rw [nodeLexemes_textElement]
    exact (balanced_lex_escapeText _).tags _ _
  | @ofElements name attributes children hn ha hc ih =>
    by_cases hne : children = []
    · subst hne
      rw [nodeLexemes_element]
      exact .leaf rfl .nil
    · rw [nodeLexemes_ofElements depth hne hc]
      have hinner := (balanced_childLexemes fun c hm => ih c hm (depth + 1)).append (balanced_lineBreak depth)
      have htags := hinner.tags name attributes
      rwa [List.append_assoc] at htags

end Upnp.Markup
