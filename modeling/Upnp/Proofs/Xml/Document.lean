import Upnp.Xml.Writer
import Upnp.Proofs.Markup.Written
import Upnp.Proofs.Xml.Passage
import Upnp.Proofs.Xml.Tag

/-
Written trees are read back. The line breaks that the writer puts between elements are blank and so
dropped, the text of an element comes back character by character, and what was put between the tags
of an element is what the element holds. Only the declarations of namespaces are lost on the way.
-/

namespace Upnp.Xml

open Upnp.Text Upnp.Markup

/-! ## Growing trees -/

namespace Growth

/-- Adds to the text under way. -/
def addText (g : Growth) (cs : List Char) : Growth :=
  { g with pending := g.pending ++ cs }

/-- Opens an element. -/
def enter (g : Growth) (tag : Tag) : Growth :=
  { open_ := ⟨tag, tag.bound ++ g.bound, g.flush.nodes⟩ :: g.open_ }

theorem addText_nil (g : Growth) : g.addText [] = g := by
  simp [addText]

theorem addText_addText (g : Growth) (cs ds : List Char) : (g.addText cs).addText ds = g.addText (cs ++ ds) := by
  simp [addText]

/-- A blank text leaves nothing behind. -/
theorem flush_of_blank {g : Growth} (h : g.pending.all isSpace = true) : g.flush = { g with pending := [] } :=
  if_pos h

theorem flush_of_not_blank {g : Growth} (h : g.pending.all isSpace = false) :
    g.flush = { g with nodes := g.nodes ++ [.text (String.ofList g.pending)], pending := [] } :=
  if_neg (by simp [h])

/-- Closing an element puts it behind what stood in front of it. -/
theorem addEvent?_closing {g h : Growth} (tag : Tag) (ho : h.open_ = (g.enter tag).open_) :
    h.addEvent? (.closing tag.name) =
      some (g.push (.element (String.ofList tag.name.base) tag.attributesByName h.flush.nodes)) := by
  have hflush : g.flush.open_ = g.open_ ∧ g.flush.pending = [] := by
    unfold flush
    split <;> exact ⟨rfl, rfl⟩
  obtain ⟨hopen, hpending⟩ := hflush
  unfold addEvent?
  rw [ho]
  simp [enter, push, hopen, hpending]

end Growth

/-! ## Texts -/

namespace Reading

open Growth

variable {p : Position} {g : Growth}

theorem read?_text {c : Char} (hc : c ≠ '<' ∧ c ≠ '&') (cs : List Char) : p.read? (c :: cs) =
    if p.isInside then p.readText? (c :: cs) else if isSpace c then some ⟨[], p, cs⟩ else none := by
  obtain ⟨hlt, hamp⟩ := hc
  unfold Position.read?
  split <;> simp_all

/-- A run of characters that mean nothing else is added to the text under way. -/
theorem passage_run (hd : p.declared = {}) (hi : p.isInside = true) {run rest : List Char} (hne : run ≠ [])
    (hrun : ∀ c ∈ run, (c ≠ '<' ∧ c ≠ '&') ∧ c ≠ '>' ∧ isXmlChar c = true) (hr : EndsText rest) :
    Passage ⟨p, g⟩ (run ++ rest) ⟨p, g.addText run⟩ rest := by
  obtain ⟨htake, hdrop⟩ := takeWhile_append_of_head (p := fun c => c != '<' && c != '&') (a := run) (b := rest)
    (fun c hc => by simp [(hrun c hc).1]) hr
  have hallowed : run.all p.declared.allowsPlainChar = true := by
    rw [hd, List.all_eq_true]
    exact fun c hc => (hrun c hc).2.2
  have hend : splitOnce? "]]>".toList run = none := by
    rw [splitOnce?_eq_none]
    intro hm
    exact (hrun '>' (hm.subset (by decide))).2.1 rfl
  have hread : p.read? (run ++ rest) = some ⟨[.text run], p, rest⟩ := by
    obtain ⟨c, cs, rfl⟩ := List.exists_cons_of_ne_nil hne
    rw [List.cons_append, read?_text (hrun c List.mem_cons_self).1, if_pos hi, ← List.cons_append]
    unfold Position.readText?
    simp only [htake, hdrop, hallowed, hend]
    rfl
  refine .single hread ?_ rfl
  have hpos := List.length_pos_iff.2 hne
  show rest.length < (run ++ rest).length
  rw [List.length_append]
  omega

theorem passage_reference (hd : p.declared = {}) (hi : p.isInside = true) {name : List Char} {c : Char}
    (hn : ∀ d ∈ name, d ≠ ';' ∧ d ≠ '&' ∧ d ≠ '<') (hr : referenced? name = some c) (hc : isXmlChar c = true)
    (rest : List Char) :
    Passage ⟨p, g⟩ ('&' :: (name ++ [';']) ++ rest) ⟨p, g.addText [c]⟩ rest := by
  have hno : ¬ [';'] <:+: name := fun hm => (hn ';' (hm.subset (List.mem_singleton_self _))).1 rfl
  have hcut := splitOnce?_append (unbordered_singleton ';') (List.cons_ne_nil _ _) hno rest
  have hchar : p.declared.charOf? name = some c := by rw [hd, charOf?_of_referenced? hr hc]
  have hread : p.read? ('&' :: (name ++ [';']) ++ rest) = some ⟨[.text [c]], p, rest⟩ := by
    rw [List.cons_append, List.append_assoc]
    show (if p.isInside then p.readReference? (name ++ ([';'] ++ rest)) else none) = _
    rw [if_pos hi]
    unfold Position.readReference?
    simp only [hcut, hchar]
  refine .single hread ?_ rfl
  simp only [List.length_append, List.length_cons]
  omega

/-- Escaped text adds the text that it was escaped from. -/
theorem passage_escapeText (hd : p.declared = {}) (hi : p.isInside = true) {v rest : List Char}
    (hv : ∀ c ∈ v, isXmlChar c = true) (hr : EndsText rest) :
    Passage ⟨p, g⟩ (escapeText v ++ rest) ⟨p, g.addText v⟩ rest := by
  -- an escaped character is a part by itself, the ones between are read in runs
  induction v using runs_induction (fun c => decide (escapeTextChar c = [c])) generalizing g with
  | nil =>
    rw [addText_nil]
    exact .done _ _
  | single c v hc ih =>
    have hchar := hv c List.mem_cons_self
    have htail := ih (g := g.addText [c]) fun d hd => hv d (List.mem_cons_of_mem c hd)
    have hesc := escapeTextChar_escape c
    rw [addText_addText] at htail
    rw [escapeText_cons, List.append_assoc]
    generalize hout : escapeTextChar c = out at hesc
    cases hesc with
    | plain h => simp [hout] at hc
    | reference name hn href => exact (passage_reference hd hi hn href hchar _).trans htail
  | run a v ha hp hv' ih =>
    have hplain : ∀ c ∈ a, escapeTextChar c = [c] := fun c hc => of_decide_eq_true (hp c hc)
    have hrun : ∀ c ∈ a, (c ≠ '<' ∧ c ≠ '&') ∧ c ≠ '>' ∧ isXmlChar c = true := by
      intro c hc
      refine ⟨isTextChar_iff.1 ((escapeTextChar_escape c).isTextChar (hplain c hc)), ?_,
        hv c (List.mem_append_left v hc)⟩
      rintro rfl
      exact absurd (hplain '>' hc) (by decide)
    have htail := ih (g := g.addText a) fun d hd => hv d (List.mem_append_right a hd)
    rw [addText_addText] at htail
    rw [escapeText_append, escapeText_of_plain hplain, List.append_assoc]
    refine (passage_run hd hi ha hrun ?_).trans htail
    exact endsText_escapeText (fun c hc => of_decide_eq_false (hv' c hc)) hr

theorem isSpace_newLine (depth : Nat) : (newLine depth).all isSpace = true := by
  simp [newLine, isSpace]

theorem passage_newLine (hd : p.declared = {}) (hi : p.isInside = true) (depth : Nat) {rest : List Char}
    (hr : EndsText rest) : Passage ⟨p, g⟩ (newLine depth ++ rest) ⟨p, g.addText (newLine depth)⟩ rest := by
  refine passage_run hd hi (List.cons_ne_nil _ _) (fun c hc => ?_) hr
  unfold newLine at hc
  rcases List.mem_cons.1 hc with rfl | hc
  · decide
  · rw [List.eq_of_mem_replicate hc]
    decide

/-! ## Tags -/

/-- The position inside an element that is opened here. -/
def inner (p : Position) : Position :=
  { p with stage := .rooted, depth := p.depth + 1 }

theorem isInside_inner (p : Position) : (inner p).isInside = true := by
  simp [inner, Position.isInside]

variable {name : String} {attributes : List (String × String)}

theorem read?_name (hn : IsUnqualified name) (cs : List Char) :
    p.read? ('<' :: (name.toList ++ cs)) = p.readOpening? (name.toList ++ cs) := by
  have hname := hn.isName
  cases hc : name.toList with
  | nil => simp [hc, isName] at hname
  | cons c ds =>
    rw [hc, isName, Bool.and_eq_true] at hname
    have hslash : c ≠ '/' := by rintro rfl; exact absurd hname.1 (by decide)
    have hmark : c ≠ '!' := by rintro rfl; exact absurd hname.1 (by decide)
    have hquestion : c ≠ '?' := by rintro rfl; exact absurd hname.1 (by decide)
    unfold Position.read?
    simp [hslash, hmark, hquestion]

theorem passage_opening (hd : p.declared = {}) (hn : IsUnqualified name) (ha : LegibleAttributes attributes)
    (rest : List Char) : Passage ⟨p, g⟩ ((openingTag name attributes).source ++ rest)
      ⟨inner p, g.enter (.ofWritten name attributes)⟩ rest := by
  have htag := Tag.read?_written hn ha (.inl ⟨rfl, rfl⟩) rest
  rw [← hd, tagChars] at htag
  have hread : p.read? ((openingTag name attributes).source ++ rest) =
      some ⟨[.opening (.ofWritten name attributes)], inner p, rest⟩ := by
    show p.read? ('<' :: (tagChars name attributes ++ ['>'] ++ rest)) = _
    rw [List.append_assoc, tagChars, List.append_assoc, read?_name hn, ← List.append_assoc]
    unfold Position.readOpening?
    simp only [htag, Option.bind_eq_bind, Option.bind_some]
    rfl
  refine .single hread ?_ ?_
  · simp [openingTag]
    omega
  · show (if _ then _ else none) >>= _ = _
    rw [if_pos (Tag.isBound_ofWritten ha _)]
    rfl

theorem passage_empty (hd : p.declared = {}) (hn : IsUnqualified name) (ha : LegibleAttributes attributes)
    (rest : List Char) : Passage ⟨p, g⟩ ((emptyTag name attributes).source ++ rest)
      ⟨{ p with stage := .rooted }, g.push (.element name (plainAttributes attributes) [])⟩ rest := by
  have htag := Tag.read?_written hn ha (.inr ⟨rfl, rfl⟩) rest
  rw [← hd, tagChars] at htag
  have hread : p.read? ((emptyTag name attributes).source ++ rest) =
      some ⟨[.opening (.ofWritten name attributes), .closing ⟨none, name.toList⟩], { p with stage := .rooted },
        rest⟩ := by
    show p.read? ('<' :: (tagChars name attributes ++ " />".toList ++ rest)) = _
    rw [List.append_assoc, tagChars, List.append_assoc, read?_name hn, ← List.append_assoc]
    unfold Position.readOpening?
    simp only [htag, Option.bind_eq_bind, Option.bind_some]
    rfl
  -- the one part brings two events, an opening and a closing
  have hclose := addEvent?_closing (g := g) (h := g.enter _) (.ofWritten name attributes) rfl
  rw [Tag.attributesByName_ofWritten ha] at hclose
  refine .single hread ?_ ?_
  · simp [emptyTag]
    omega
  · show (if _ then _ else none) >>= _ = _
    rw [if_pos (Tag.isBound_ofWritten ha _)]
    show (Growth.enter g (.ofWritten name attributes)).addEvent? _ >>= _ = _
    rw [show (.closing ⟨none, name.toList⟩ : Event) = .closing (Tag.ofWritten name attributes).name from rfl, hclose]
    simp [Tag.ofWritten, enter, flush]

/-- An element is opened, filled and closed. -/
theorem passage_element (hd : p.declared = {}) (hn : IsUnqualified name) (ha : LegibleAttributes attributes)
    (content rest : List Char) {h : Growth}
    (hc : Passage ⟨inner p, g.enter (.ofWritten name attributes)⟩ (content ++ ((closingTag name).source ++ rest))
      ⟨inner p, h⟩ ((closingTag name).source ++ rest))
    (ho : h.open_ = (g.enter (.ofWritten name attributes)).open_) :
    Passage ⟨p, g⟩ ((openingTag name attributes).source ++ (content ++ (closingTag name).source) ++ rest)
      ⟨{ p with stage := .rooted }, g.push (.element name (plainAttributes attributes) h.flush.nodes)⟩ rest := by
  have hclose := addEvent?_closing (.ofWritten name attributes) ho
  rw [Tag.attributesByName_ofWritten ha] at hclose
  have hread : (inner p).read? ((closingTag name).source ++ rest) =
      some ⟨[.closing ⟨none, name.toList⟩], { p with stage := .rooted }, rest⟩ := by
    show (if (inner p).isInside then (readClosing? (name.toList ++ ['>'] ++ rest)).map _ else none) = _
    rw [if_pos (isInside_inner p), List.append_assoc, List.singleton_append, readClosing?_written hn]
    rfl
  have hlast : Passage ⟨inner p, h⟩ ((closingTag name).source ++ rest)
      ⟨{ p with stage := .rooted }, g.push (.element name (plainAttributes attributes) h.flush.nodes)⟩ rest := by
    refine .single hread ?_ ?_
    · simp [closingTag]
      omega
    · show h.addEvent? (.closing (Tag.ofWritten name attributes).name) >>= _ = _
      rw [hclose]
      simp [Tag.ofWritten]
  rw [List.append_assoc, List.append_assoc]
  exact (passage_opening hd hn ha _).trans (hc.trans hlast)

end Reading

/-! ## Trees -/

/-- The text is kept: it is more than white space and holds characters of documents only. -/
structure IsKept (content : String) : Prop where
  legible : content.toList.all isXmlChar = true
  notBlank : content.toList.all isSpace = false

/-- The tree is read as what it is: each element holds one text or such elements. -/
inductive Legible : Node → Prop
  | ofText {name content : String} {attributes : List (String × String)} (hn : IsUnqualified name)
    (ha : LegibleAttributes attributes) (hp : ∀ a ∈ attributes, a.1 ≠ "xmlns") (hk : IsKept content) :
    Legible (.element name attributes [.text content])
  | ofElements {name : String} {attributes : List (String × String)} {children : List Node} (hn : IsUnqualified name)
    (ha : LegibleAttributes attributes) (hp : ∀ a ∈ attributes, a.1 ≠ "xmlns") (hc : ∀ c ∈ children, Legible c) :
    Legible (.element name attributes children)

theorem LegibleAttributes.proper {attributes : List (String × String)} (h : LegibleAttributes attributes) :
    ProperAttributes attributes :=
  fun a ha => (h.name a ha).isName

theorem Legible.proper {n : Node} (h : Legible n) : Proper n := by
  induction h with
  | ofText hn ha _ _ => exact .ofText hn.isName ha.proper
  | ofElements hn ha _ _ ih => exact .ofElements hn.isName ha.proper ih

namespace Reading

open Growth

variable {p : Position} {g : Growth}

/-- Children on lines of their own are added one after the other. -/
theorem passage_children (hd : p.declared = {}) (hi : p.isInside = true) (depth : Nat) (rest : List Char)
    {cs : List Node} (hp : ∀ c ∈ cs, Proper c)
    (hc : ∀ c ∈ cs, ∀ (g : Growth) (r : List Char), Passage ⟨p, g⟩ (c.write depth ++ r) ⟨p, g.push c⟩ r)
    (hg : g.pending = []) :
    Passage ⟨p, g⟩ (Node.writeAll depth false cs ++ rest) ⟨p, { g with nodes := g.nodes ++ cs }⟩ rest := by
  induction cs generalizing g with
  | nil =>
    rw [writeAll_nil, List.append_nil]
    exact .done _ _
  | cons c cs ih =>
    -- the line break in front of a child is dropped when the child is put behind it
    have hpush : (g.addText (newLine depth)).push c = { g with nodes := g.nodes ++ [c] } := by
      unfold push
      rw [flush_of_blank (by simp [addText, hg, isSpace_newLine])]
      simp [addText, hg]
    have hfirst := hc c List.mem_cons_self (g.addText (newLine depth)) (Node.writeAll depth false cs ++ rest)
    have htail := ih (g := { g with nodes := g.nodes ++ [c] }) (fun d hd => hp d (List.mem_cons_of_mem c hd))
      (fun d hd => hc d (List.mem_cons_of_mem c hd)) hg
    rw [List.append_assoc] at htail
    rw [hpush] at hfirst
    obtain ⟨r, hw⟩ := write_of_proper (hp c List.mem_cons_self) depth
    rw [writeAll_cons, if_neg Bool.false_ne_true, List.append_assoc, List.append_assoc]
    refine (passage_newLine hd hi depth ?_).trans (hfirst.trans htail)
    rw [hw, List.cons_append]
    exact endsText_markup _

variable {name : String} {attributes : List (String × String)}

theorem passage_ofText (hd : p.declared = {}) (hn : IsUnqualified name) (ha : LegibleAttributes attributes)
    {content : String} (hk : IsKept content) (depth : Nat) (rest : List Char) :
    Passage ⟨p, g⟩ ((Node.element name attributes [.text content]).write depth ++ rest)
      ⟨{ p with stage := .rooted }, g.push (.element name (plainAttributes attributes) [.text content])⟩ rest := by
  have hnodes : ((g.enter (.ofWritten name attributes)).addText content.toList).flush.nodes = [.text content] := by
    rw [flush_of_not_blank (by simpa [addText, enter] using hk.notBlank)]
    simp [addText, enter]
  have htext := passage_escapeText (g := g.enter (.ofWritten name attributes)) (p := inner p) hd (isInside_inner p)
    (List.all_eq_true.1 hk.legible) (endsText_markup ('/' :: (name.toList ++ ['>'] ++ rest)))
  have helement := passage_element hd hn ha (g := g) (escapeText content.toList) rest htext rfl
  rw [hnodes] at helement
  rw [write_ofText]
  exact helement

theorem passage_ofElements (hd : p.declared = {}) (hn : IsUnqualified name) (ha : LegibleAttributes attributes)
    {children : List Node} (depth : Nat) (hp : ∀ c ∈ children, Proper c)
    (hc : ∀ c ∈ children, ∀ (g : Growth) (r : List Char),
      Passage ⟨inner p, g⟩ (c.write (depth + 1) ++ r) ⟨inner p, g.push c⟩ r) (rest : List Char) :
    Passage ⟨p, g⟩ ((Node.element name attributes children).write depth ++ rest)
      ⟨{ p with stage := .rooted }, g.push (.element name (plainAttributes attributes) children)⟩ rest := by
  by_cases hne : children = []
  · subst hne
    rw [write_empty]
    exact passage_empty hd hn ha rest
  · have hlines := passage_children (g := g.enter (.ofWritten name attributes)) (p := inner p) hd (isInside_inner p)
      (depth + 1) (newLine depth ++ ((closingTag name).source ++ rest)) hp hc rfl
    have hbreak := passage_newLine (p := inner p) (g := { g.enter (.ofWritten name attributes) with nodes := children })
      hd (isInside_inner p) depth (endsText_markup ('/' :: (name.toList ++ ['>'] ++ rest)))
    have hcontent := hlines.trans hbreak
    rw [← List.append_assoc] at hcontent
    have helement := passage_element hd hn ha _ rest hcontent rfl
    rw [flush_of_blank (isSpace_newLine depth)] at helement
    rw [write_ofElements depth hne hp, ← List.append_assoc (Node.writeAll _ _ _)]
    exact helement

/-- A written tree is read as the tree, whatever stands behind it. -/
theorem passage_write {n : Node} (h : Legible n) (hd : p.declared = {}) (hs : p.stage = .rooted) (depth : Nat)
    (rest : List Char) : Passage ⟨p, g⟩ (n.write depth ++ rest) ⟨p, g.push n⟩ rest := by
  have hsame : ∀ q : Position, q.stage = .rooted → { q with stage := .rooted } = q := by
    rintro ⟨declared, stage, depth, expansions, outside⟩ rfl
    rfl
  induction h generalizing p g depth rest with
  | ofText hn ha hp hk =>
    have hread := passage_ofText (g := g) hd hn ha hk depth rest
    rwa [plainAttributes_of_ne hp, hsame p hs] at hread
  | ofElements hn ha hp hc ih =>
    have hread := passage_ofElements (g := g) hd hn ha depth (fun c hm => (hc c hm).proper)
      (fun c hm g r => ih c hm (p := inner p) hd rfl (depth + 1) r) rest
    rwa [plainAttributes_of_ne hp, hsame p hs] at hread

end Reading

/-! ## Documents -/

theorem readDeclaration?_declaration (cs : List Char) :
    readDeclaration? (declaration.toList ++ cs) = some (false, cs) := by
  have hlegible : LegibleAttributes [("version", "1.0"), ("encoding", "UTF-8")] :=
    ⟨by decide, by decide, by decide, by decide⟩
  have hparts : Declaration.read? (declaration.toList.drop 5 ++ cs) = some ({}, cs) := by
    have hwritten : declaration.toList.drop 5 ++ cs =
        writeAttributes [("version", "1.0"), ("encoding", "UTF-8")] ++ ("?>".toList ++ cs) := rfl
    have hread := readAttributes?_written hlegible ("?>".toList ++ cs) (fun c hc => by cases hc; decide)
      ((declaration.toList.drop 5 ++ cs).length + 1) (by simp [declaration])
    unfold Declaration.read?
    rw [hwritten] at hread ⊢
    simp only [hread, Option.bind_eq_bind, Option.bind_some]
    rfl
  show (Declaration.read? (declaration.toList.drop 5 ++ cs)).bind _ = _
  rw [hparts]
  rfl

/-- A document is read as the tree that it was written from, without the namespaces that its root
declares. -/
theorem read?_write (root : Element) (hn : IsUnqualified root.name) (ha : LegibleAttributes root.attributes)
    (hc : ∀ c ∈ root.children, Legible c) :
    read? (write root) = some { root with attributes := plainAttributes root.attributes } := by
  obtain ⟨name, attributes, children⟩ := root
  have hchars : (write ⟨name, attributes, children⟩).toList = declaration.toList ++
      (newLine 0 ++ (Node.element name attributes children).write 0) := by
    simp [write, writeChars, Element.toNode]
  generalize hlength : (newLine 0 ++ (Node.element name attributes children).write 0).length + 1 = outside
  have hread : ({ outside } : Position).read? (newLine 0 ++ (Node.element name attributes children).write 0) =
      some ⟨[], { outside }, (Node.element name attributes children).write 0⟩ := rfl
  have hbreak : Reading.Passage ⟨{ outside }, {}⟩ (newLine 0 ++ (Node.element name attributes children).write 0)
      ⟨{ outside }, {}⟩ ((Node.element name attributes children).write 0) := .single hread (Nat.lt_succ_self _) rfl
  have helement := Reading.passage_ofElements (p := { outside }) (g := {}) rfl hn ha 0
    (fun c hm => (hc c hm).proper)
    (fun c hm g r => Reading.passage_write (hc c hm) (p := Reading.inner { outside }) rfl rfl 1 r) []
  rw [List.append_nil] at helement
  have hall := Reading.readAll?_of_passage (readDeclaration?_declaration _) (hlength ▸ hbreak.trans helement) rfl rfl
  unfold read?
  rw [hchars, hall]
  rfl

end Upnp.Xml
