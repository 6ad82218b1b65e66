import Upnp.Proofs.Url.Path

/-
Path texts behind a base. Whatever the path text is, the authority is read of the base alone: slashes,
backslashes, at-signs and marks of the text stand behind the slash where the authority has ended already. A text
that is no URL by itself therefore stays at the origin that it is put behind.
-/

namespace Upnp.Url

open Upnp.Text

/-! ## Bases of scheme and authority -/

/-- Text without blanks and controls in front of a slash is not cleaned away. -/
theorem cleaned_append_slash {a : List Char} (ha : Unbroken a) (hne : a ≠ []) (cs : List Char) :
    cleaned (a ++ '/' :: cs) = a ++ '/' :: (dropTrailing isTrimmedAtEnds cs).filter (!isDropped ·) := by
  have hkept : ∀ c ∈ a, isTrimmedAtEnds c = false ∧ isDropped c = false := by
    intro c hc
    have hlt := ha c hc
    refine ⟨decide_eq_false (by omega), ?_⟩
    rw [Bool.eq_false_iff]
    intro hd
    simp only [isDropped, Bool.or_eq_true, beq_iff_eq] at hd
    rcases hd with (rfl | rfl) | rfl <;> exact absurd hlt (by decide)
  have hfront : (a ++ '/' :: cs).dropWhile isTrimmedAtEnds = a ++ '/' :: cs := by
    refine dropWhile_of_head fun c hc => ?_
    cases a with
    | nil => exact absurd rfl hne
    | cons d a =>
      cases hc
      exact (hkept _ List.mem_cons_self).1
  have hfilter : a.filter (!isDropped ·) = a :=
    List.filter_eq_self.2 fun c hc => by simp [(hkept c hc).2]
  unfold cleaned
  rw [hfront, dropTrailing_append_cons (by decide), List.filter_append, hfilter, List.filter_cons_of_pos (by decide)]

section

variable {scheme base : String} {authority : List Char} (toAscii : DomainRule)

/-- Joining takes nothing off a base that ends with its authority. -/
theorem toList_join (ha : ∀ c ∈ authority, IsHostChar c) (hne : authority ≠ [])
    (hb : base.toList = scheme.toList ++ "://".toList ++ authority) (path : String) :
    (join base path).toList = base.toList ++ '/' :: (trimSlashes path).toList := by
  have hlast : ∀ c, base.toList.getLast? = some c → (c == '/') = false := by
    intro c hc
    rw [hb, List.getLast?_append_of_ne_nil _ hne] at hc
    have hslash := (ha c (List.mem_of_getLast? hc)).not_slash
    rw [isSlash, Bool.or_eq_false_iff] at hslash
    exact hslash.1
  unfold join
  rw [dropTrailing_of_last hlast]
  simp

/-- Behind a base of the web, the path text is read behind the authority of the base. -/
theorem parse?_join_authority (hs : scheme = "http" ∨ scheme = "https") (ha : ∀ c ∈ authority, IsHostChar c)
    (hne : authority ≠ []) (hb : base.toList = scheme.toList ++ "://".toList ++ authority) (path : String) :
    parse? (join base path) toAscii = readHierarchical? scheme
      (authority ++ '/' :: (dropTrailing isTrimmedAtEnds (trimSlashes path).toList).filter (!isDropped ·)) toAscii := by
  have hunbroken : Unbroken base.toList := by
    rw [hb]
    exact .append (.append (unbroken_of_http hs) (unbroken_of_all (by decide))) fun c hc => (ha c hc).graphic
  have hclean := cleaned_append_slash hunbroken (by rw [hb]; simp) (trimSlashes path).toList
  rw [← toList_join ha hne hb path, hb, List.append_assoc, List.append_assoc] at hclean
  have hslashes : ∀ cs,
      ("//".toList ++ (authority ++ '/' :: cs)).dropWhile (isSlash true) = authority ++ '/' :: cs := by
    intro cs
    rw [List.dropWhile_append_of_pos (by simp [isSlash])]
    refine dropWhile_of_head fun c hc => (ha c ?_).not_slash
    rw [List.head?_append_of_ne_nil _ hne] at hc
    exact List.mem_of_head? hc
  unfold parse? parseChars?
  rw [hclean]
  rcases hs with rfl | rfl
  · exact congrArg (readHierarchical? "http" · toAscii) (hslashes _)
  · exact congrArg (readHierarchical? "https" · toAscii) (hslashes _)

end

/-! ## Paths behind a base -/

section

variable {scheme base : String} {host port : List Char} (toAscii : DomainRule)

/-- What is read behind a base: its host and its port, and what reading leaves of the path text. -/
theorem parse?_join (hs : scheme = "http" ∨ scheme = "https") (hh : IsHostText host) (hp : IsPortText port)
    (hb : base.toList = scheme.toList ++ "://".toList ++ (host ++ port)) (path : String) :
    ∃ rest, parse? (join base path) toAscii =
      (readWebHost? host toAscii).bind fun h => (readPortPart? scheme port).map fun p =>
        withPath scheme (some ⟨none, some h, p.1⟩) (.segments (readSegments true ('/' :: behindBase path))) rest := by
  have hchars : ∀ c ∈ host ++ port, IsHostChar c := List.forall_mem_append.2 ⟨hh.isHostChar, hp.isHostChar⟩
  have hne : host ++ port ≠ [] := List.append_ne_nil_of_left_ne_nil hh.ne_nil port
  have hw := isWebScheme_of_http hs
  have hread := parse?_join_authority toAscii hs hchars hne hb path
  have hbehind : behindBase path =
      ((dropTrailing isTrimmedAtEnds (trimSlashes path).toList).filter (!isDropped ·)).takeWhile (!endsPath ·) := rfl
  generalize (dropTrailing isTrimmedAtEnds (trimSlashes path).toList).filter (!isDropped ·) = cs at hread hbehind
  have hpath : spanUntil endsPath ('/' :: cs) = ('/' :: behindBase path, ('/' :: cs).dropWhile (!endsPath ·)) := by
    rw [hbehind, ← spanUntil_slash]
    rfl
  -- the authority ends at the slash that joining puts there, before any character of the path text
  refine ⟨('/' :: cs).dropWhile (!endsPath ·), hread.trans ?_⟩
  unfold readHierarchical?
  simp only [hw, spanUntil_authority hchars]
  rw [readAuthority?_of_spanHost hw (fun c hc => (hchars c hc).not_at) (hh.spanHost_append hp.head), if_neg hh.ne_nil]
  cases readWebHost? host toAscii with
  | none => rfl
  | some h =>
    cases hport : readPortPart? scheme port with
    | none => rfl
    | some p =>
      obtain ⟨port, left⟩ := p
      obtain rfl := hp.left hport
      simp only [Option.bind_some, Option.map_some, Option.bind_eq_bind, List.nil_append, hpath, List.isEmpty_cons,
        Bool.false_and, Bool.false_eq_true, if_false]

/-- The path of a URL behind a base is what reading leaves of the path text. -/
theorem path_of_absolute {address digits path : String} {u : Url} (ha : IsHostText address.toList)
    (hd : ∀ c ∈ digits.toList, c.isDigit = true) (hp : parse? path = none)
    (h : absolute ("http://" ++ address ++ ":" ++ digits) path = .ok u) :
    u.path = .segments (readSegments true ('/' :: behindBase path)) := by
  have hbase : ("http://" ++ address ++ ":" ++ digits).toList =
      "http".toList ++ "://".toList ++ (address.toList ++ ':' :: digits.toList) := by simp
  obtain ⟨rest, hread⟩ := parse?_join asciiDomain? (.inl rfl) ha (.digits hd) hbase path
  generalize "http://" ++ address ++ ":" ++ digits = base at h hread
  unfold absolute at h
  rw [hp] at h
  cases hparsed : parse? (join base path) with
  | none =>
    rw [hparsed] at h
    cases h
  | some v =>
    rw [hparsed] at h hread
    obtain ⟨rfl, -⟩ := isWebScheme_of_requireHttp h
    obtain ⟨host, -, hread⟩ := Option.bind_eq_some_iff.1 hread.symm
    obtain ⟨port, -, rfl⟩ := Option.map_eq_some_iff.1 hread
    rfl

end

/-! ## Origins -/

section

variable {toAscii : DomainRule}

/-- The host and the port of a URL of the web were read from a text. -/
theorem authority_of_parse? {text : String} {u : Url} (h : parse? text toAscii = some u)
    (hw : isWebScheme u.scheme = true) :
    ∃ cs host, readWebHost? cs toAscii = some host ∧ u.host? = some host ∧ IsPortOf u.scheme u.port? := by
  obtain ⟨rest, -, h⟩ := parseChars?_eq_some_of_web h hw
  obtain ⟨chars, tail, authority, left, path, rest, -, hauthority, -, hu⟩ := readHierarchical?_eq_some_of_web hw h
  unfold readAuthority? at hauthority
  simp only [hw, true_or, if_true] at hauthority
  split at hauthority
  · cases hauthority
  · obtain ⟨host, hhost, hauthority⟩ := Option.bind_eq_some_iff.1 hauthority
    obtain ⟨p, hport, hauthority⟩ := Option.bind_eq_some_iff.1 hauthority
    cases hauthority
    refine ⟨_, host, hhost, by rw [hu]; rfl, ?_⟩
    have hp : u.port? = p.1 := by rw [hu]; rfl
    exact hp ▸ isPortOf_of_readPortPart? hport

theorem origin?_ne_empty {u : Url} {o : String} (h : u.origin? = some o) : o ≠ "" := by
  obtain ⟨host, -, rfl⟩ := Option.map_eq_some_iff.1 h
  intro hempty
  have hchars := congrArg String.toList hempty
  simp at hchars

/-- Behind the origin of a URL of the web, every path text is read as the path of a URL of the same origin. -/
theorem parse?_join_origin (hk : toAscii.Keeps) {text o : String} {u : Url} (h : parse? text toAscii = some u)
    (hs : u.scheme = "http" ∨ u.scheme = "https") (ho : u.origin? = some o) (path : String) :
    ∃ v, parse? (join o path) toAscii = some v ∧ v.scheme = u.scheme ∧ v.host? = u.host? ∧ v.port? = u.port? ∧
      v.path = .segments (readSegments true ('/' :: behindBase path)) := by
  obtain ⟨cs, host, hread, hhost, hport⟩ := authority_of_parse? h (isWebScheme_of_http hs)
  obtain ⟨htext, hself⟩ := readWebHost?_text hk hread
  have hbase : o.toList = u.scheme.toList ++ "://".toList ++ (host.text.toList ++ (portText u.port?).toList) := by
    unfold origin? at ho
    rw [hhost, Option.map_some, Option.some.injEq] at ho
    rw [← ho]
    simp
  obtain ⟨rest, hjoin⟩ := parse?_join toAscii hs htext (isPortText_portText u.port?) hbase path
  rw [hself, Option.bind_some, readPortPart?_portText hport, Option.map_some] at hjoin
  exact ⟨_, hjoin, rfl, hhost.symm, rfl, rfl⟩

end

end Upnp.Url
