import Mathlib.Data.List.Infix
import Upnp.Proofs.Text.Run
import Upnp.Proofs.Text.Split
import Upnp.Url.Resolve

/-
What the URLs of web pages are read from: behind a scheme of the web and slashes, which may be any
number, stand an authority and a path, up to the marks of query and fragment.
-/

namespace Upnp.Url

open Upnp.Text

variable {u : Url} {scheme : String} {cs : List Char} {toAscii : DomainRule}

theorem isWebScheme_of_http (h : scheme = "http" ∨ scheme = "https") : isWebScheme scheme = true := by
  rcases h with rfl | rfl <;> decide

theorem isWebScheme_of_requireHttp {v : Url} (h : requireHttp u = .ok v) :
    u = v ∧ (u.scheme = "http" ∨ u.scheme = "https") ∧ isWebScheme u.scheme = true := by
  unfold requireHttp at h
  split at h
  · rename_i hs
    exact ⟨Except.ok.inj h, hs, isWebScheme_of_http hs⟩
  · cases h

/-- The authority, the path and what stands behind the path. -/
theorem readHierarchical?_eq_some (h : readHierarchical? scheme cs toAscii = some u) :
    ∃ host tail authority left path rest, spanUntil (endsAuthority (isWebScheme scheme)) cs = (host, tail) ∧
      readAuthority? scheme host tail toAscii = some (authority, left) ∧
      spanUntil endsPath (left ++ tail) = (path, rest) ∧
      u = withPath scheme (some authority)
        (.segments (if path.isEmpty && !isWebScheme scheme then [] else readSegments (isWebScheme scheme) path))
        rest := by
  unfold readHierarchical? at h
  obtain ⟨⟨authority, left⟩, ha, h⟩ := Option.bind_eq_some_iff.1 h
  exact ⟨_, _, authority, left, _, _, rfl, ha, rfl, (Option.some.inj h).symm⟩

/-- Of a URL of the web, every path is read as segments. -/
theorem readHierarchical?_eq_some_of_web (hw : isWebScheme scheme = true)
    (h : readHierarchical? scheme cs toAscii = some u) :
    ∃ host tail authority left path rest, spanUntil (endsAuthority true) cs = (host, tail) ∧
      readAuthority? scheme host tail toAscii = some (authority, left) ∧
      spanUntil endsPath (left ++ tail) = (path, rest) ∧
      u = withPath scheme (some authority) (.segments (readSegments true path)) rest := by
  obtain ⟨host, tail, authority, left, path, rest, hhost, ha, hpath, hu⟩ := readHierarchical?_eq_some h
  rw [hw, Bool.not_true, Bool.and_false, if_neg Bool.false_ne_true] at hu
  rw [hw] at hhost
  exact ⟨host, tail, authority, left, path, rest, hhost, ha, hpath, hu⟩

theorem scheme_of_readHierarchical? (h : readHierarchical? scheme cs toAscii = some u) : u.scheme = scheme := by
  obtain ⟨-, -, -, -, -, -, -, -, -, rfl⟩ := readHierarchical?_eq_some h
  rfl

theorem spanUntil_slash (cs : List Char) :
    (spanUntil endsPath ('/' :: cs)).1 = '/' :: cs.takeWhile (!endsPath ·) := by
  unfold spanUntil
  rw [List.takeWhile_cons_of_pos (by decide)]

theorem scheme_of_readFile? (h : readFile? cs toAscii = some u) : u.scheme = "file" := by
  have hfinish : ∀ {host : Option Host} {r : List Char}, readFile?.finish host r = some u → u.scheme = "file" := by
    intro host r h
    unfold readFile?.finish at h
    cases h
    rfl
  unfold readFile? at h
  simp only at h
  split at h
  · split at h
    · split at h
      · exact hfinish h
      · obtain ⟨host, -, h⟩ := Option.bind_eq_some_iff.1 h
        exact hfinish h
    · exact hfinish h
  · exact hfinish h

theorem scheme_of_readOther? (h : readOther? scheme cs toAscii = some u) : u.scheme = scheme := by
  unfold readOther? at h
  split at h
  · exact scheme_of_readHierarchical? h
  · cases h
    rfl
  · cases h
    rfl

/-- A URL of the web was read as a hierarchical one. -/
theorem parseChars?_eq_some_of_web (h : parseChars? cs toAscii = some u) (hw : isWebScheme u.scheme = true) :
    ∃ rest, splitScheme? (cleaned cs) = some (u.scheme.toList, rest) ∧
      readHierarchical? u.scheme (rest.dropWhile (isSlash true)) toAscii = some u := by
  unfold parseChars? at h
  obtain ⟨⟨schemeChars, rest⟩, hsplit, h⟩ := Option.bind_eq_some_iff.1 h
  simp only at h
  split at h
  · have hscheme := scheme_of_readHierarchical? h
    refine ⟨rest, ?_, ?_⟩
    · rw [hsplit, hscheme, String.toList_ofList]
    · rw [hscheme]
      exact h
  · rename_i hno
    split at h
    · rw [scheme_of_readFile? h] at hw
      exact absurd hw (by decide)
    · rw [scheme_of_readOther? h] at hw
      exact absurd hw hno

/-! ## Authorities -/

/-- Characters of an authority without credentials: they are not cleaned away, and none is a mark behind which
the authority would end or a host begin. -/
structure IsHostChar (c : Char) : Prop where
  graphic : 0x20 < c.toNat
  within : endsAuthority true c = false
  not_at : c ≠ '@'

theorem IsHostChar.not_slash {c : Char} (h : IsHostChar c) : isSlash true c = false :=
  (Bool.or_eq_false_iff.1 h.within).1

/-- The authority ends where the path begins. -/
theorem spanUntil_authority {authority : List Char} (h : ∀ c ∈ authority, IsHostChar c) (cs : List Char) :
    spanUntil (endsAuthority true) (authority ++ '/' :: cs) = (authority, '/' :: cs) := by
  obtain ⟨htake, hdrop⟩ := takeWhile_append_of_head (p := (!endsAuthority true ·)) (a := authority) (b := '/' :: cs)
    (fun c hc => by simp [(h c hc).within]) fun c hc => by
      cases hc
      decide
  unfold spanUntil
  rw [htake, hdrop]

/-- An authority without at-signs is a host with a port. -/
theorem readAuthority?_of_spanHost (hw : isWebScheme scheme = true) {host port rest : List Char}
    (hat : ∀ c ∈ host ++ port, c ≠ '@') (hspan : spanHost false (host ++ port) = (host, port)) :
    readAuthority? scheme (host ++ port) rest toAscii =
      if host = [] then none
      else (readWebHost? host toAscii).bind fun h => (readPortPart? scheme port).map fun p => (⟨none, some h, p.1⟩, p.2) := by
  have hnone : splitCredentials (host ++ port) = (none, host ++ port) := by
    have hmem : ¬ ['@'] <:+: (host ++ port).reverse := by
      rw [List.singleton_infix_iff, List.mem_reverse]
      exact fun hm => hat '@' hm rfl
    unfold splitCredentials
    rw [splitOnce?_eq_none.2 hmem]
  unfold readAuthority?
  simp only [hnone, hspan, hw, true_or, if_true, List.isEmpty_iff]
  split
  · rfl
  · cases readWebHost? host toAscii with
    | none => rfl
    | some h => cases readPortPart? scheme port <;> rfl

/-! ## Path segments -/

/-- What holds of the empty segment and of the encoded ones holds of all segments that come of them. -/
theorem forall_mem_addSegments {P : String → Prop} (hempty : P "") {folder : List String} {segs : List (List Char)}
    (hf : ∀ n ∈ folder, P n) (hs : ∀ seg ∈ segs, P (String.ofList (Percent.encode Percent.inPath seg))) :
    ∀ n ∈ addSegments folder segs, P n := by
  -- a dot segment at the end leaves an empty segment
  have hend : ∀ (front : List String) (last : Bool), (∀ n ∈ front, P n) →
      ∀ n ∈ front ++ (if last then [""] else []), P n := by
    intro front last hfront
    cases last with
    | true => exact List.forall_mem_append.2 ⟨hfront, List.forall_mem_singleton.2 hempty⟩
    | false => simpa using hfront
  induction segs generalizing folder with
  | nil => exact hf
  | cons seg segs ih =>
    rw [List.forall_mem_cons] at hs
    unfold addSegments
    simp only
    split
    · exact ih (hend _ _ fun n hn => hf n (List.dropLast_subset folder hn)) hs.2
    · split
      · exact ih (hend _ _ hf) hs.2
      · exact ih (List.forall_mem_append.2 ⟨hf, List.forall_mem_singleton.2 hs.1⟩) hs.2

end Upnp.Url
