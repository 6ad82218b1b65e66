import Upnp.Ssdp.Packet
import Upnp.Proofs.Text.Run
import Upnp.Proofs.Text.Split

/-
Header bags and header lines. A bag that was filled name by name holds each name once and in upper
case, and filling an empty bag with its entries gives it back; a line written for an entry whose
parts are fit for the wire is read as that entry.
-/

namespace Upnp.Ssdp

open Upnp.Text

/-! ## Names in upper case -/

theorem upperAscii_toList (s : String) : (upperAscii s).toList = s.toList.map Char.toUpper := by
  unfold upperAscii
  rw [String.toList_ofList]

theorem toNat_toUpper (c : Char) :
    c.toUpper.toNat = if 97 ≤ c.toNat ∧ c.toNat ≤ 122 then c.toNat - 32 else c.toNat := by
  have ha : 'a'.val.toNat = 97 := rfl
  have hz : 'z'.val.toNat = 122 := rfl
  have hA : ('A'.val - 'a'.val : UInt32).toNat = 4294967264 := rfl
  have hc : c.toNat = c.val.toNat := rfl
  unfold Char.toUpper
  split
  · rename_i h
    simp only [UInt32.le_iff_toNat_le, ha, hz] at h
    rw [hc, if_pos h]
    show (c.val + ('A'.val - 'a'.val)).toNat = _
    rw [UInt32.toNat_add, hA]
    omega
  · rename_i h
    simp only [UInt32.le_iff_toNat_le, ha, hz] at h
    rw [hc, if_neg h]

theorem toUpper_toUpper (c : Char) : c.toUpper.toUpper = c.toUpper := by
  rw [← Char.toNat_inj, toNat_toUpper c.toUpper, toNat_toUpper c]
  repeat' split
  all_goals omega

theorem upperAscii_upperAscii (s : String) : upperAscii (upperAscii s) = upperAscii s := by
  rw [← String.toList_inj, upperAscii_toList, upperAscii_toList, List.map_map]
  exact List.map_congr_left fun c _ => toUpper_toUpper c

/-- A character that is no capital comes from itself alone. -/
theorem eq_of_toUpper_eq {c d : Char} (h : c.toUpper = d) (hd : d.toNat < 65 ∨ 90 < d.toNat) : c = d := by
  have hn := toNat_toUpper c
  rw [h] at hn
  rw [← Char.toNat_inj, hn]
  split <;> split at hn <;> omega

theorem eq_of_map_toUpper_eq : ∀ {cs l : List Char}, cs.map Char.toUpper = l →
    (∀ c ∈ l, c.toNat < 65 ∨ 90 < c.toNat) → cs = l
  | [], [], _, _ => rfl
  | c :: cs, d :: l, h, hl => by
    rw [List.map_cons, List.cons.injEq] at h
    rw [eq_of_toUpper_eq h.1 (hl d List.mem_cons_self),
      eq_of_map_toUpper_eq h.2 fun e he => hl e (List.mem_cons_of_mem d he)]

/-- Upper case brings in no text without capitals. -/
theorem infix_of_infix_upperAscii {l : List Char} (hl : ∀ c ∈ l, c.toNat < 65 ∨ 90 < c.toNat) {s : String}
    (h : l <:+: (upperAscii s).toList) : l <:+: s.toList := by
  rw [upperAscii_toList, List.infix_map_iff] at h
  obtain ⟨cs, hcs, hmap⟩ := h
  rwa [← eq_of_map_toUpper_eq hmap.symm hl]

/-! ## Bags -/

namespace Headers

/-- Each name is there once and in upper case. -/
structure Normal (hs : Headers) : Prop where
  nodup : (hs.map (·.1)).Nodup
  upper : ∀ h ∈ hs, upperAscii h.1 = h.1

theorem Normal.nil : Normal [] :=
  ⟨List.nodup_nil, by simp⟩

theorem put_of_not_mem {key : String} (value : String) : ∀ {hs : Headers}, key ∉ hs.map (·.1) →
    put key value hs = hs ++ [(key, value)]
  | [], _ => rfl
  | (k, v) :: hs, h => by
    rw [List.map_cons, List.mem_cons, not_or] at h
    rw [put, if_neg (fun he => h.1 he.symm), put_of_not_mem value h.2]
    rfl

/-- Writing under a name that is there leaves the names as they are. -/
theorem keys_put_of_mem {key : String} (value : String) : ∀ {hs : Headers}, key ∈ hs.map (·.1) →
    (put key value hs).map (·.1) = hs.map (·.1)
  | (k, v) :: hs, h => by
    rw [put]
    split
    · rfl
    · rename_i hk
      rw [List.map_cons, List.mem_cons] at h
      rcases h with he | h
      · exact absurd he.symm hk
      · rw [List.map_cons, List.map_cons, keys_put_of_mem value h]

theorem eq_or_mem_of_mem_put {key value : String} {e : String × String} :
    ∀ {hs : Headers}, e ∈ put key value hs → e = (key, value) ∨ e ∈ hs
  | [], h => .inl (List.mem_singleton.1 h)
  | (k, v) :: hs, h => by
    rw [put] at h
    split at h
    · rename_i hk
      rcases List.mem_cons.1 h with he | h
      · exact .inl (hk ▸ he)
      · exact .inr (List.mem_cons_of_mem _ h)
    · rcases List.mem_cons.1 h with he | h
      · exact .inr (he ▸ List.mem_cons_self)
      · exact (eq_or_mem_of_mem_put h).imp id (List.mem_cons_of_mem _)

theorem Normal.set {hs : Headers} (h : hs.Normal) (name value : String) : (hs.set name value).Normal := by
  constructor
  · by_cases hk : upperAscii name ∈ hs.map (·.1)
    · unfold Headers.set
      rw [keys_put_of_mem value hk]
      exact h.nodup
    · unfold Headers.set
      rw [put_of_not_mem value hk, List.map_append, List.nodup_append]
      refine ⟨h.nodup, List.nodup_cons.2 ⟨List.not_mem_nil, List.nodup_nil⟩, ?_⟩
      rintro a ha b hb rfl
      rw [List.mem_singleton.1 hb] at ha
      exact hk ha
  · intro e he
    rcases eq_or_mem_of_mem_put he with rfl | he
    · exact upperAscii_upperAscii name
    · exact h.upper e he

/-- Writes entries one after the other. -/
def setAll (hs : Headers) (entries : List (String × String)) : Headers :=
  entries.foldl (fun hs (k, v) => hs.set k v) hs

theorem Normal.setAll : ∀ {hs : Headers} (entries : List (String × String)), hs.Normal →
    (hs.setAll entries).Normal
  | _, [], h => h
  | _, (k, v) :: entries, h => Normal.setAll entries (h.set k v)

/-- What is in a filled bag was there before or is one of the entries with its name in upper case. -/
theorem mem_setAll {e : String × String} : ∀ {hs : Headers} (entries : List (String × String)),
    e ∈ hs.setAll entries → e ∈ hs ∨ ∃ x ∈ entries, e = (upperAscii x.1, x.2)
  | _, [], h => .inl h
  | _, (k, v) :: entries, h => by
    rcases mem_setAll entries h with h | ⟨x, hx, he⟩
    · rcases eq_or_mem_of_mem_put h with he | h
      · exact .inr ⟨(k, v), List.mem_cons_self, he⟩
      · exact .inl h
    · exact .inr ⟨x, List.mem_cons_of_mem _ hx, he⟩

theorem setAll_append : ∀ {hs entries : Headers}, (hs ++ entries).Normal →
    hs.setAll entries = hs ++ entries
  | hs, [], _ => by
    rw [List.append_nil]
    rfl
  | hs, (k, v) :: entries, h => by
    have hup : upperAscii k = k := h.upper (k, v) (by simp)
    have hk : k ∉ hs.map (·.1) := by
      have hn := h.nodup
      rw [List.map_append, List.nodup_append] at hn
      exact fun hm => hn.2.2 k hm k (by simp) rfl
    have hset : hs.set k v = hs ++ [(k, v)] := by
      unfold Headers.set
      rw [hup, put_of_not_mem v hk]
    have hcons : hs ++ (k, v) :: entries = (hs ++ [(k, v)]) ++ entries := by simp
    rw [hcons] at h ⊢
    rw [← setAll_append h, ← hset]
    rfl

/-- The entries of a bag, written into an empty one, give the bag back. -/
theorem setAll_nil_of_normal {hs : Headers} (h : hs.Normal) : setAll [] hs = hs :=
  @setAll_append [] hs h

end Headers

/-! ## Header lines -/

/-- The parts of an entry are fit for a header line: read back, they are what was written. -/
structure FitForLine (h : String × String) : Prop where
  named : h.1 ≠ ""
  name_line : ¬ Packet.lineEnd <:+: h.1.toList
  name_cut : ¬ [':', ' '] <:+: h.1.toList
  value_line : ¬ Packet.lineEnd <:+: h.2.toList
  value_trimmed : dropBlanks h.2.toList = h.2.toList

instance (h : String × String) : Decidable (FitForLine h) :=
  decidable_of_iff (h.1 ≠ "" ∧ splitOnce? Packet.lineEnd h.1.toList = none ∧ splitOnce? [':', ' '] h.1.toList = none ∧
      splitOnce? Packet.lineEnd h.2.toList = none ∧ dropBlanks h.2.toList = h.2.toList)
    ⟨fun ⟨h, i, j, k, l⟩ => ⟨h, splitOnce?_eq_none.1 i, splitOnce?_eq_none.1 j, splitOnce?_eq_none.1 k, l⟩,
      fun ⟨h, i, j, k, l⟩ => ⟨h, splitOnce?_eq_none.2 i, splitOnce?_eq_none.2 j, splitOnce?_eq_none.2 k, l⟩⟩

/-- The line of an entry, without its end. -/
def headerLine (h : String × String) : List Char :=
  h.1.toList ++ ([':', ' '] ++ h.2.toList)

theorem unbordered_colon_blank : Unbordered [':', ' '] := by
  unfold Unbordered
  decide

theorem headerLine_ne_nil (h : String × String) : headerLine h ≠ [] := by
  simp [headerLine]

theorem headerOfLine?_headerLine {h : String × String} (hf : FitForLine h) :
    Packet.headerOfLine? (headerLine h) = some h := by
  have hcut : splitOnce? [':', ' '] (headerLine h) = some (h.1.toList, h.2.toList) :=
    splitOnce?_append unbordered_colon_blank (List.cons_ne_nil _ _) hf.name_cut _
  have hne : h.1.toList.isEmpty = false := by
    rw [List.isEmpty_eq_false_iff]
    exact fun he => hf.named (String.toList_inj.1 he)
  unfold Packet.headerOfLine?
  rw [hcut, Option.some_or]
  simp only [hne, hf.value_trimmed, String.ofList_toList]
  rfl

theorem filterMap_headerLines : ∀ {hs : Headers}, (∀ h ∈ hs, FitForLine h) →
    (hs.map headerLine).filterMap Packet.headerOfLine? = hs
  | [], _ => rfl
  | h :: hs, hf => by
    rw [List.map_cons, List.filterMap_cons_some (headerOfLine?_headerLine (hf h List.mem_cons_self)),
      filterMap_headerLines fun e he => hf e (List.mem_cons_of_mem h he)]

theorem not_lineEnd_headerLine {h : String × String} (hf : FitForLine h) :
    ¬ Packet.lineEnd <:+: headerLine h := by
  unfold headerLine
  rw [List.cons_append, infix_append_cons_iff (by decide), List.cons_append, List.nil_append,
    infix_cons_iff_of_not_mem (by decide) (by decide)]
  exact not_or.2 ⟨hf.name_line, hf.value_line⟩

theorem FitForLine.upperAscii {k v : String} (h : FitForLine (k, v)) : FitForLine (upperAscii k, v) where
  named := fun he => h.named (by
    have hl := congrArg (List.length ∘ String.toList) he
    simp only [Function.comp, upperAscii_toList, List.length_map] at hl
    exact String.toList_inj.1 (List.eq_nil_of_length_eq_zero hl))
  name_line := fun hi => h.name_line (infix_of_infix_upperAscii (by simp [Packet.lineEnd]) hi)
  name_cut := fun hi => h.name_cut (infix_of_infix_upperAscii (by simp) hi)
  value_line := h.value_line
  value_trimmed := h.value_trimmed

theorem fitForLine_of_parts {name value : List Char} (hn : name ≠ []) (hnl : ¬ Packet.lineEnd <:+: name)
    (hnc : ¬ [':', ' '] <:+: name) (hvl : ¬ Packet.lineEnd <:+: value) :
    FitForLine (String.ofList name, String.ofList (dropBlanks value)) where
  named := fun he => hn (by
    have := congrArg String.toList he
    rwa [String.toList_ofList] at this)
  name_line := by rwa [String.toList_ofList]
  name_cut := by rwa [String.toList_ofList]
  value_line := by
    rw [String.toList_ofList]
    exact fun hi => hvl (hi.trans (List.dropWhile_suffix isBlank).isInfix)
  value_trimmed := by
    rw [String.toList_ofList]
    exact dropBlanks_dropBlanks value

/-- An entry that was read off a line is fit for a line. -/
theorem fitForLine_of_headerOfLine? {line : List Char} {h : String × String} (hl : ¬ Packet.lineEnd <:+: line)
    (hr : Packet.headerOfLine? line = some h) : FitForLine h := by
  have hpart : ∀ {sep name value : List Char}, line = name ++ (sep ++ value) →
      name <:+: line ∧ value <:+: line := by
    rintro sep name value rfl
    exact ⟨(List.prefix_append name _).isInfix,
      ((List.suffix_append sep value).trans (List.suffix_append name _)).isInfix⟩
  unfold Packet.headerOfLine? at hr
  split at hr
  · rename_i name value hcut
    split at hr
    · cases hr
    · rename_i hne
      cases hr
      have hname : name ≠ [] := fun he => hne (by rw [he]; rfl)
      -- either the name ends at the first colon with a blank, or the line has no such colon
      rcases hc : splitOnce? [':', ' '] line with _ | ⟨a, b⟩
      · rw [hc, Option.none_or] at hcut
        obtain ⟨hn, hv⟩ := hpart (splitOnce?_some hcut)
        have hno : ¬ [':', ' '] <:+: line := splitOnce?_eq_none.1 hc
        exact fitForLine_of_parts hname (fun hi => hl (hi.trans hn)) (fun hi => hno (hi.trans hn))
          (fun hi => hl (hi.trans hv))
      · rw [hc, Option.some_or, Option.some.injEq, Prod.mk.injEq] at hcut
        obtain ⟨rfl, rfl⟩ := hcut
        obtain ⟨hn, hv⟩ := hpart (splitOnce?_some hc)
        exact fitForLine_of_parts hname (fun hi => hl (hi.trans hn))
          (not_infix_of_splitOnce? (List.cons_ne_nil _ _) hc) (fun hi => hl (hi.trans hv))
  · cases hr

end Upnp.Ssdp
