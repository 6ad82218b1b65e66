import Mathlib.Data.List.Infix
import Mathlib.Data.List.TakeWhile
import Upnp.Proofs.Text.Run
import Upnp.Proofs.Text.Split
import Upnp.Proofs.Url.Text

/-
The path of a web URL that was put behind a base. Joining takes slashes off both ends of the path text,
and reading drops, encodes and resolves parts of it; the path comes out as it was written just when it
is in normal form.
-/

namespace Upnp.Url

open Upnp.Text

/-! ## Normal form -/

/-- Characters that a path keeps as they are; a backslash would become a slash. -/
def isPathChar (c : Char) : Bool :=
  !Percent.inPath c && c != '\\'

/-- Segments that stand for a folder instead of a name in it. -/
def isDotSegment (seg : List Char) : Bool :=
  isDoubleDot seg || isSingleDot seg

/-- The path text has one slash in front and none at its end, unless it is the slash alone; it holds no
character that a path does not keep, and no dot segment. -/
def IsNormalPath (path : String) : Prop :=
  ∃ body, path.toList = '/' :: body ∧ (body.head? ≠ some '/' ∧ body.getLast? ≠ some '/') ∧
    body.all isPathChar = true ∧ (splitAll ['/'] body).all (!isDotSegment ·) = true

/-! ## Encoded segments -/

namespace Percent

theorem encode_of_not_mem {inSet : Char → Bool} {cs : List Char} (h : ∀ c ∈ cs, inSet c = false) :
    encode inSet cs = cs := by
  induction cs with
  | nil => rfl
  | cons c cs ih =>
    have hc : encodeChar inSet c = [c] := by
      unfold encodeChar
      rw [if_neg (by simp [h c])]
    show encodeChar inSet c ++ encode inSet cs = _
    rw [hc, ih fun d hd => h d (List.mem_cons_of_mem c hd)]
    rfl

theorem isPathChar_upperHex : ∀ n < 16, isPathChar (upperHex n) = true := by
  decide

theorem isPathChar_encode {cs : List Char} (h : '\\' ∉ cs) : ∀ c ∈ encode inPath cs, isPathChar c = true := by
  intro c hc
  obtain ⟨d, hd, hcd⟩ := List.mem_flatMap.1 hc
  unfold encodeChar at hcd
  split at hcd
  · obtain ⟨b, -, hb⟩ := List.mem_flatMap.1 hcd
    have hlt : b.toNat < 256 := b.toNat_lt
    simp only [encodeOctet, List.mem_cons, List.not_mem_nil, or_false] at hb
    rcases hb with rfl | rfl | rfl
    · decide
    · exact isPathChar_upperHex _ (by omega)
    · exact isPathChar_upperHex _ (by omega)
  · rename_i hin
    rw [List.mem_singleton.1 hcd]
    have hslash : d ≠ '\\' := fun he => h (he ▸ hd)
    simp [isPathChar, hin, hslash]

end Percent

/-! ## Path texts -/

theorem toList_segments (names : List String) :
    (Path.segments names).text.toList = names.flatMap fun n => '/' :: n.toList := by
  show (String.join (names.map ("/" ++ ·))).toList = _
  rw [String.toList_join, List.flatMap_map]
  simp only [String.toList_append]
  rfl

/-- Segments behind slashes are the pieces that slashes cut a text into. -/
theorem flatMap_slash {ps : List (List Char)} (h : ps ≠ []) :
    ps.flatMap ('/' :: ·) = '/' :: ['/'].intercalate ps := by
  induction ps with
  | nil => exact absurd rfl h
  | cons p ps ih =>
    cases ps with
    | nil => simp
    | cons q ps =>
      rw [List.flatMap_cons, ih (List.cons_ne_nil q ps), List.intercalate_cons_cons]
      simp

theorem isDotSegment_ne_nil {seg : List Char} (h : isDotSegment seg = true) : seg ≠ [] := by
  rintro rfl
  exact absurd h (by decide)

/-- Segments without dot segments are added as they are. -/
theorem addSegments_of_not_dot {folder : List String} {segs : List (List Char)}
    (he : ∀ seg ∈ segs, Percent.encode Percent.inPath seg = seg) (hd : ∀ seg ∈ segs, isDotSegment seg = false) :
    addSegments folder segs = folder ++ segs.map String.ofList := by
  induction segs generalizing folder with
  | nil => simp [addSegments]
  | cons seg segs ih =>
    rw [List.forall_mem_cons] at he hd
    have hdots := hd.1
    rw [isDotSegment, Bool.or_eq_false_iff] at hdots
    unfold addSegments
    simp only [he.1, hdots.1, hdots.2, Bool.false_eq_true, if_false]
    rw [ih he.2 hd.2]
    simp

/-- The length of a path text with these segments. -/
def extent (names : List String) : Nat :=
  (names.flatMap fun n => '/' :: n.toList).length

theorem extent_append (a b : List String) : extent (a ++ b) = extent a + extent b := by
  simp [extent]

theorem extent_singleton (n : String) : extent [n] = n.toList.length + 1 := by
  simp [extent]

theorem extent_dropLast (names : List String) : extent names.dropLast ≤ extent names := by
  rcases List.eq_nil_or_concat names with rfl | ⟨front, last, rfl⟩
  · exact Nat.le_refl _
  · rw [List.concat_eq_append, List.dropLast_concat, extent_append]
    exact Nat.le_add_right _ _

/-- Dot segments make the text of a path shorter than what it was read from. -/
theorem extent_addSegments (folder : List String) {segs : List (List Char)}
    (he : ∀ seg ∈ segs, Percent.encode Percent.inPath seg = seg) :
    extent (addSegments folder segs) ≤ extent folder + (segs.flatMap ('/' :: ·)).length ∧
      ((∃ seg ∈ segs, isDotSegment seg = true) →
        extent (addSegments folder segs) < extent folder + (segs.flatMap ('/' :: ·)).length) := by
  have hend : ∀ last : Bool, extent (if last then [""] else []) ≤ 1 := by decide
  induction segs generalizing folder with
  | nil => simp [addSegments]
  | cons seg segs ih =>
    rw [List.forall_mem_cons] at he
    have hlength : ((seg :: segs).flatMap ('/' :: ·)).length = seg.length + 1 + (segs.flatMap ('/' :: ·)).length := by
      rw [List.flatMap_cons, List.length_append, List.length_cons]
    have hlast := hend segs.isEmpty
    unfold addSegments
    simp only [he.1]
    by_cases hdot : isDotSegment seg = true
    · have hseg : 0 < seg.length := List.length_pos_iff.2 (isDotSegment_ne_nil hdot)
      rw [isDotSegment, Bool.or_eq_true] at hdot
      -- a dot segment leaves an empty segment behind at most
      split
      · have hrest := (ih (folder.dropLast ++ (if segs.isEmpty then [""] else [])) he.2).1
        have hdrop := extent_dropLast folder
        rw [extent_append] at hrest
        exact ⟨by omega, fun _ => by omega⟩
      · rename_i hdouble
        rw [if_pos (hdot.resolve_left hdouble)]
        have hrest := (ih (folder ++ (if segs.isEmpty then [""] else [])) he.2).1
        rw [extent_append] at hrest
        exact ⟨by omega, fun _ => by omega⟩
    · have hplain := hdot
      rw [isDotSegment, Bool.or_eq_true, not_or] at hplain
      rw [if_neg hplain.1, if_neg hplain.2]
      have hrest := ih (folder ++ [String.ofList seg]) he.2
      rw [extent_append, extent_singleton, String.toList_ofList] at hrest
      refine ⟨by omega, fun hex => ?_⟩
      have hmore : ∃ x ∈ segs, isDotSegment x = true := by simpa [hdot] using hex
      have hless := hrest.2 hmore
      omega

/-! ## Paths behind a base -/

/-- What reading leaves of a path text that was put behind a base. -/
def behindBase (path : String) : List Char :=
  ((dropTrailing isTrimmedAtEnds (trimSlashes path).toList).filter (!isDropped ·)).takeWhile (!endsPath ·)

theorem readSegments_slash (cs : List Char) : readSegments true ('/' :: cs) =
    addSegments [] (splitAll ['/'] (cs.map fun c => if isSlash true c then '/' else c)) := by
  rfl

theorem trimSlashes_ends (path : String) :
    (trimSlashes path).toList.head? ≠ some '/' ∧ (trimSlashes path).toList.getLast? ≠ some '/' := by
  unfold trimSlashes trimMatches
  rw [String.toList_ofList]
  generalize hX : path.toList.dropWhile (· == '/') = X
  have hhead : ∀ c, X.head? = some c → (c == '/') = false := hX ▸ head_dropWhile
  constructor
  · intro h
    obtain ⟨t, ht⟩ := isPrefix_dropTrailing (· == '/') X
    have hc := hhead '/' (by rw [← ht, List.head?_append, h]; rfl)
    exact absurd hc (by decide)
  · intro h
    unfold dropTrailing at h
    rw [List.getLast?_reverse] at h
    have hc := head_dropWhile '/' h
    exact absurd hc (by decide)

theorem isInfix_trimSlashes (path : String) : (trimSlashes path).toList <:+: path.toList := by
  unfold trimSlashes trimMatches
  rw [String.toList_ofList]
  exact (isPrefix_dropTrailing _ _).isInfix.trans (List.dropWhile_suffix _).isInfix

/-- Reading leaves nothing but characters that paths keep. -/
theorem isPathChar_of_mem_segments (cs : List Char) :
    ∀ c ∈ (Path.segments (readSegments true cs)).text.toList, isPathChar c = true := by
  have hunified : '\\' ∉ cs.map fun c => if isSlash true c then '/' else c := by
    intro hm
    obtain ⟨c, -, hc⟩ := List.mem_map.1 hm
    split at hc
    · exact absurd hc (by decide)
    · rename_i hslash
      exact hslash (hc ▸ rfl)
  have hnames : ∀ n ∈ readSegments true cs, ∀ c ∈ n.toList, isPathChar c = true := by
    refine forall_mem_addSegments (by simp) (fun n hn => absurd hn List.not_mem_nil) fun seg hseg => ?_
    rw [String.toList_ofList]
    refine Percent.isPathChar_encode fun hm => hunified ?_
    have hbody := (infix_of_mem_splitAll (List.cons_ne_nil _ _) seg hseg).subset hm
    split at hbody
    · rename_i r hr
      rw [hr]
      exact List.mem_cons_of_mem _ hbody
    · exact hbody
  intro c hc
  rw [toList_segments] at hc
  obtain ⟨n, hn, hcn⟩ := List.mem_flatMap.1 hc
  rcases List.mem_cons.1 hcn with rfl | hcn
  · decide
  · exact hnames n hn c hcn

theorem not_inPath_of_isPathChar {c : Char} (h : isPathChar c = true) : Percent.inPath c = false := by
  simp only [isPathChar, Bool.and_eq_true, Bool.not_eq_true'] at h
  exact h.1

theorem not_le_of_isPathChar {c : Char} (h : isPathChar c = true) : ¬ c.toNat ≤ 0x20 := by
  intro hle
  have hin := Percent.inPath_of_le hle
  rw [not_inPath_of_isPathChar h] at hin
  cases hin

/-- Characters that paths keep are neither dropped nor taken for a mark or another slash. -/
theorem kept_of_isPathChar {c : Char} (h : isPathChar c = true) :
    isTrimmedAtEnds c = false ∧ isDropped c = false ∧ endsPath c = false ∧ (if isSlash true c then '/' else c) = c := by
  refine ⟨decide_eq_false (not_le_of_isPathChar h), ?_, ?_, ?_⟩
  · rw [Bool.eq_false_iff]
    intro hd
    simp only [isDropped, Bool.or_eq_true, beq_iff_eq] at hd
    rcases hd with (rfl | rfl) | rfl <;> exact absurd h (by decide)
  · rw [Bool.eq_false_iff]
    intro he
    simp only [endsPath, Bool.or_eq_true, beq_iff_eq] at he
    rcases he with rfl | rfl <;> exact absurd h (by decide)
  · split
    · rename_i hs
      simp only [isSlash, Bool.true_and, Bool.or_eq_true, beq_iff_eq] at hs
      rcases hs with rfl | rfl
      · rfl
      · exact absurd h (by decide)
    · rfl

theorem behindBase_of_isPathChar {path : String} (h : ∀ c ∈ path.toList, isPathChar c = true) :
    behindBase path = (trimSlashes path).toList := by
  have hkept : ∀ c ∈ (trimSlashes path).toList, isPathChar c = true := fun c hc =>
    h c ((isInfix_trimSlashes path).subset hc)
  unfold behindBase
  generalize (trimSlashes path).toList = cs at hkept
  have hends : dropTrailing isTrimmedAtEnds cs = cs :=
    dropTrailing_of_last fun c hc => (kept_of_isPathChar (hkept c (List.mem_of_getLast? hc))).1
  have hfilter : cs.filter (!isDropped ·) = cs :=
    List.filter_eq_self.2 fun c hc => by simp [(kept_of_isPathChar (hkept c hc)).2.1]
  rw [hends, hfilter, List.takeWhile_eq_self_iff]
  exact fun c hc => by simp [(kept_of_isPathChar (hkept c hc)).2.2.1]

theorem encode_of_mem_splitAll {cs : List Char} (h : ∀ c ∈ cs, isPathChar c = true) :
    ∀ seg ∈ splitAll ['/'] cs, Percent.encode Percent.inPath seg = seg := fun seg hseg =>
  Percent.encode_of_not_mem fun c hc =>
    not_inPath_of_isPathChar (h c ((infix_of_mem_splitAll (List.cons_ne_nil _ _) seg hseg).subset hc))

theorem readSegments_of_isPathChar {cs : List Char} (h : ∀ c ∈ cs, isPathChar c = true) :
    readSegments true ('/' :: cs) = addSegments [] (splitAll ['/'] cs) := by
  rw [readSegments_slash, (List.map_congr_left fun c hc => (kept_of_isPathChar (h c hc)).2.2.2).trans (List.map_id' cs)]

theorem flatMap_splitAll (cs : List Char) : (splitAll ['/'] cs).flatMap ('/' :: ·) = '/' :: cs := by
  rw [flatMap_slash (splitAll_ne_nil _ _), intercalate_splitAll (List.cons_ne_nil _ _)]

/-- A text without dot segments that paths keep is the text of its path. -/
theorem text_segments_of_not_dot {cs : List Char} (h : ∀ c ∈ cs, isPathChar c = true)
    (hd : ∀ seg ∈ splitAll ['/'] cs, isDotSegment seg = false) :
    (Path.segments (readSegments true ('/' :: cs))).text.toList = '/' :: cs := by
  rw [readSegments_of_isPathChar h, addSegments_of_not_dot (encode_of_mem_splitAll h) hd, toList_segments,
    List.nil_append, List.flatMap_map]
  simp only [String.toList_ofList]
  exact flatMap_splitAll cs

theorem trimSlashes_of_normal {path : String} {body : List Char} (h : path.toList = '/' :: body)
    (hh : body.head? ≠ some '/') (hl : body.getLast? ≠ some '/') : (trimSlashes path).toList = body := by
  have hdrop : body.dropWhile (· == '/') = body :=
    dropWhile_of_head fun c hc => by
      rw [beq_eq_false_iff_ne]
      rintro rfl
      exact hh hc
  unfold trimSlashes trimMatches
  rw [String.toList_ofList, h, List.dropWhile_cons_of_pos (by rfl), hdrop]
  refine dropTrailing_of_last fun c hc => ?_
  rw [beq_eq_false_iff_ne]
  rintro rfl
  exact hl hc

/-- A slash in front is always trimmed. -/
theorem length_trimSlashes {path : String} {rest : List Char} (h : path.toList = '/' :: rest) :
    (trimSlashes path).toList.length < path.toList.length := by
  have hrest : (trimSlashes path).toList <:+: rest := by
    unfold trimSlashes trimMatches
    rw [String.toList_ofList, h, List.dropWhile_cons_of_pos (by rfl)]
    exact (isPrefix_dropTrailing _ _).isInfix.trans (List.dropWhile_suffix _).isInfix
  have hle := hrest.length_le
  rw [h, List.length_cons]
  omega

theorem head_segments {names : List String} {c : Char} {rest : List Char}
    (h : (Path.segments names).text.toList = c :: rest) : c = '/' := by
  rw [toList_segments] at h
  cases names with
  | nil => cases h
  | cons n names =>
    rw [List.flatMap_cons, List.cons_append, List.cons.injEq] at h
    exact h.1.symm

/-- A path text that was put behind a base comes back as it was written if and only if it is in normal
form. -/
theorem text_behindBase_iff (path : String) :
    (Path.segments (readSegments true ('/' :: behindBase path))).text = path ↔ IsNormalPath path := by
  constructor
  · intro htext
    -- the path holds what reading leaves, and reading changes none of these characters
    have hkept : ∀ c ∈ path.toList, isPathChar c = true := htext ▸ isPathChar_of_mem_segments _
    have htrimmed : ∀ c ∈ (trimSlashes path).toList, isPathChar c = true := fun c hc =>
      hkept c ((isInfix_trimSlashes path).subset hc)
    rw [behindBase_of_isPathChar hkept] at htext
    by_cases hdots : ∃ seg ∈ splitAll ['/'] (trimSlashes path).toList, isDotSegment seg = true
    · -- a dot segment would have made the path shorter than it was
      exfalso
      have hshort := (extent_addSegments [] (encode_of_mem_splitAll htrimmed)).2 hdots
      rw [← readSegments_of_isPathChar htrimmed, extent, ← toList_segments, htext, flatMap_splitAll,
        List.length_cons] at hshort
      change _ < 0 + _ at hshort
      cases hpath : path.toList with
      | nil =>
        have hnil : (trimSlashes path).toList = [] := List.infix_nil.1 (hpath ▸ isInfix_trimSlashes path)
        rw [hnil] at hdots
        exact absurd hdots (by decide)
      | cons c rest =>
        obtain rfl := head_segments (htext.symm ▸ hpath)
        have hlonger := length_trimSlashes hpath
        omega
    · have hplain : ∀ seg ∈ splitAll ['/'] (trimSlashes path).toList, isDotSegment seg = false := fun seg hseg =>
        Bool.eq_false_iff.2 fun h => hdots ⟨seg, hseg, h⟩
      have hpath := text_segments_of_not_dot htrimmed hplain
      rw [htext] at hpath
      exact ⟨_, hpath, trimSlashes_ends path, List.all_eq_true.2 htrimmed, List.all_eq_true.2 fun seg hseg => by
        simp [hplain seg hseg]⟩
  · rintro ⟨body, hpath, ⟨hh, hl⟩, hkept, hplain⟩
    rw [List.all_eq_true] at hkept hplain
    have hchars : ∀ c ∈ path.toList, isPathChar c = true := by
      rw [hpath, List.forall_mem_cons]
      exact ⟨by decide, hkept⟩
    rw [behindBase_of_isPathChar hchars, trimSlashes_of_normal hpath hh hl, ← String.toList_inj, hpath]
    exact text_segments_of_not_dot hkept fun seg hseg => by simpa using hplain seg hseg

end Upnp.Url
