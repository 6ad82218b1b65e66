import Upnp.Proofs.Text.Split
import Upnp.Proofs.Url.Host

/-
The texts of web URLs. Whatever a URL of the web was read from, its text holds neither blanks nor
controls: each part is percent encoded, and hosts have no such characters. A URL text can therefore be
put on a line of its own.
-/

namespace Upnp.Url

open Upnp.Text

/-! ## Texts without blanks and controls -/

/-- The text holds no space and no control character below it. -/
def Unbroken (cs : List Char) : Prop :=
  ∀ c ∈ cs, 0x20 < c.toNat

theorem Unbroken.append {a b : List Char} (ha : Unbroken a) (hb : Unbroken b) : Unbroken (a ++ b) :=
  List.forall_mem_append.2 ⟨ha, hb⟩

theorem Unbroken.cons {c : Char} {cs : List Char} (hc : 0x20 < c.toNat) (h : Unbroken cs) : Unbroken (c :: cs) :=
  List.forall_mem_cons.2 ⟨hc, h⟩

theorem Unbroken.nil : Unbroken [] :=
  fun _ hc => absurd hc List.not_mem_nil

theorem Unbroken.single {c : Char} (hc : 0x20 < c.toNat) : Unbroken [c] :=
  .cons hc .nil

theorem unbroken_of_all {cs : List Char} (h : cs.all (0x20 < ·.toNat) = true) : Unbroken cs :=
  fun c hc => of_decide_eq_true (List.all_eq_true.1 h c hc)

theorem Unbroken.flatMap {α : Type} {xs : List α} {f : α → List Char} (h : ∀ x ∈ xs, Unbroken (f x)) :
    Unbroken (xs.flatMap f) := by
  intro c hc
  obtain ⟨x, hx, hcx⟩ := List.mem_flatMap.1 hc
  exact h x hx c hcx

/-! ## Percent encoding -/

namespace Percent

theorem lt_upperHex : ∀ n < 16, 0x20 < (upperHex n).toNat := by
  decide

theorem unbroken_encodeOctet (b : UInt8) : Unbroken (encodeOctet b) := by
  have hb : b.toNat < 256 := b.toNat_lt
  have hhigh := lt_upperHex (b.toNat / 16) (by omega)
  have hlow := lt_upperHex (b.toNat % 16) (by omega)
  exact .cons (by decide) (.cons hhigh (.single hlow))

/-- The blanks and controls of the text are gone if they are in the set. -/
theorem unbroken_encode {inSet : Char → Bool} (h : ∀ c, c.toNat ≤ 0x20 → inSet c = true) (cs : List Char) :
    Unbroken (String.ofList (encode inSet cs)).toList := by
  rw [String.toList_ofList]
  refine .flatMap fun c _ => ?_
  unfold encodeChar
  split
  · exact .flatMap fun b _ => unbroken_encodeOctet b
  · rename_i hc
    intro d hd
    rw [List.mem_singleton.1 hd]
    exact Nat.lt_of_not_le fun hle => hc (h c hle)

theorem inControls_or_space {c : Char} (h : c.toNat ≤ 0x20) : inControls c = true ∨ c = ' ' := by
  by_cases hlt : c.toNat < 0x20
  · left
    simp [inControls, hlt]
  · right
    rw [← Char.toNat_inj]
    show c.toNat = 0x20
    omega

theorem inFragment_of_le {c : Char} (h : c.toNat ≤ 0x20) : inFragment c = true := by
  rcases inControls_or_space h with hc | rfl
  · simp [inFragment, hc]
  · decide

theorem inPath_of_le {c : Char} (h : c.toNat ≤ 0x20) : inPath c = true := by
  simp [inPath, inFragment_of_le h]

theorem inUserinfo_of_le {c : Char} (h : c.toNat ≤ 0x20) : inUserinfo c = true := by
  simp [inUserinfo, inPath_of_le h]

theorem inSpecialQuery_of_le {c : Char} (h : c.toNat ≤ 0x20) : inSpecialQuery c = true := by
  rcases inControls_or_space h with hc | rfl
  · simp [inSpecialQuery, inQuery, hc]
  · decide

end Percent

/-! ## Hosts -/

/-- A host of the web is written without blanks and controls. -/
theorem unbroken_of_readWebHost? {cs : List Char} {host : Host} (h : readWebHost? cs = some host) :
    Unbroken host.text.toList :=
  fun c hc => ((readWebHost?_text asciiDomain?_keeps h).1.isHostChar c hc).graphic

/-! ## Parts -/

theorem unbroken_of_http {scheme : String} (h : scheme = "http" ∨ scheme = "https") : Unbroken scheme.toList := by
  rcases h with rfl | rfl <;> exact unbroken_of_all (by decide)

theorem unbroken_readCredentials? {cs : List Char} {c : Credentials} (h : readCredentials? cs = some c) :
    Unbroken c.text.toList := by
  have hpart := Percent.unbroken_encode fun _ => Percent.inUserinfo_of_le
  unfold readCredentials? at h
  simp only at h
  split at h
  · cases h
  · cases h
    unfold Credentials.text
    rw [String.toList_append, String.toList_append]
    refine ((hpart _).append ?_).append (.single (by decide))
    split
    · exact .nil
    · rw [String.toList_append]
      exact (Unbroken.single (by decide)).append (hpart _)

theorem unbroken_portText (port : Option Nat) : Unbroken (portText port).toList :=
  fun c hc => ((isPortText_portText port).isHostChar c hc).graphic

theorem unbroken_readAuthority? {scheme : String} {cs rest left : List Char} {a : Authority}
    (hw : isWebScheme scheme = true) (h : readAuthority? scheme cs rest = some (a, left)) : Unbroken a.text.toList := by
  unfold readAuthority? at h
  simp only [hw, true_or, if_true] at h
  split at h
  · cases h
  · obtain ⟨host, hhost, h⟩ := Option.bind_eq_some_iff.1 h
    obtain ⟨⟨port, left⟩, -, h⟩ := Option.bind_eq_some_iff.1 h
    cases h
    unfold Authority.text
    rw [String.toList_append, String.toList_append, String.toList_append]
    refine ((Unbroken.append (unbroken_of_all (by decide)) ?_).append (unbroken_of_readWebHost? hhost)).append
      (unbroken_portText port)
    cases hc : (splitCredentials cs).1.bind readCredentials? with
    | none => exact .nil
    | some c =>
      obtain ⟨user, -, hread⟩ := Option.bind_eq_some_iff.1 hc
      exact unbroken_readCredentials? hread

theorem unbroken_pathText (web : Bool) (cs : List Char) :
    Unbroken (Path.segments (readSegments web cs)).text.toList := by
  have hnames : ∀ n ∈ readSegments web cs, Unbroken n.toList := by
    refine forall_mem_addSegments .nil (fun n hn => absurd hn List.not_mem_nil) fun seg _ => ?_
    exact Percent.unbroken_encode (fun _ => Percent.inPath_of_le) seg
  generalize readSegments web cs = names at hnames
  show Unbroken (String.join (names.map ("/" ++ ·))).toList
  rw [String.toList_join]
  refine .flatMap fun t ht => ?_
  obtain ⟨n, hn, rfl⟩ := List.mem_map.1 ht
  rw [String.toList_append]
  exact (Unbroken.single (by decide)).append (hnames n hn)

theorem unbroken_markedText {mark : String} {part : Option String} (hm : Unbroken mark.toList)
    (hp : ∀ s ∈ part, Unbroken s.toList) : Unbroken (markedText mark part).toList := by
  unfold markedText
  cases part with
  | none => exact .nil
  | some s =>
    show Unbroken (mark ++ s).toList
    rw [String.toList_append]
    exact hm.append (hp s rfl)

theorem unbroken_readQueryFragment (cs : List Char) :
    (∀ s ∈ (readQueryFragment true cs).1, Unbroken s.toList) ∧
      ∀ s ∈ (readQueryFragment true cs).2, Unbroken s.toList := by
  have hquery := Percent.unbroken_encode fun _ => Percent.inSpecialQuery_of_le
  have hfragment := Percent.unbroken_encode fun _ => Percent.inFragment_of_le
  unfold readQueryFragment
  simp only [if_true]
  split
  · refine ⟨fun s hs => ?_, fun s hs => ?_⟩
    · cases hs
      exact hquery _
    · simp only at hs
      split at hs
      · cases hs
        exact hfragment _
      · cases hs
  · refine ⟨fun s hs => (by cases hs), fun s hs => ?_⟩
    cases hs
    exact hfragment _
  · exact ⟨fun s hs => (by cases hs), fun s hs => (by cases hs)⟩

/-! ## Whole URLs -/

/-- The text of a URL of the web holds no blanks and no controls, whatever it was read from. -/
theorem unbroken_text {cs : List Char} {u : Url} (h : parseChars? cs = some u)
    (hs : u.scheme = "http" ∨ u.scheme = "https") : Unbroken u.text.toList := by
  have hw := isWebScheme_of_http hs
  obtain ⟨rest, -, hread⟩ := parseChars?_eq_some_of_web h hw
  obtain ⟨host, tail, authority, left, path, marked, -, ha, -, hu⟩ := readHierarchical?_eq_some_of_web hw hread
  have hscheme := unbroken_of_http hs
  obtain ⟨hquery, hfragment⟩ := unbroken_readQueryFragment marked
  have htext : u.text = u.scheme ++ ":" ++ authority.text ++ (Path.text (.segments (readSegments true path)) ++
      markedText "?" (readQueryFragment true marked).1) ++ markedText "#" (readQueryFragment true marked).2 := by
    unfold withPath at hu
    rw [hw] at hu
    rw [hu]
    rfl
  have hcolon : Unbroken ":".toList := unbroken_of_all (by decide)
  have hquestion : Unbroken "?".toList := unbroken_of_all (by decide)
  have hsharp : Unbroken "#".toList := unbroken_of_all (by decide)
  rw [htext]
  simp only [String.toList_append]
  exact (((hscheme.append hcolon).append (unbroken_readAuthority? hw ha)).append
    ((unbroken_pathText true _).append (unbroken_markedText hquestion hquery))).append
    (unbroken_markedText hsharp hfragment)

theorem unbroken_absolute {base path : String} {u : Url} (h : absolute base path = .ok u) :
    Unbroken u.text.toList ∧ (u.scheme = "http" ∨ u.scheme = "https") := by
  unfold absolute at h
  split at h
  · rename_i hp
    obtain ⟨rfl, hs, -⟩ := isWebScheme_of_requireHttp h
    exact ⟨unbroken_text hp hs, hs⟩
  · split at h
    · rename_i hp
      obtain ⟨rfl, hs, -⟩ := isWebScheme_of_requireHttp h
      exact ⟨unbroken_text hp hs, hs⟩
    · cases h

end Upnp.Url
