import Mathlib.Data.List.Infix
import Upnp.Net.Interface
import Upnp.Proofs.Text.Split

/-
The interface that is nearest to a peer. Addresses of equal block count are as near as the longest list of
blocks that both begin with, all others are farther than any of them; of the interfaces the first of the
nearest is taken, so that those in front of it are all farther and none behind it is nearer.
-/

namespace Upnp.Net

open Upnp.Text

/-! ## Blocks -/

/-- The blocks of a dotted address: put together with dots they are the address, and none holds a dot. -/
structure Blocks (address : String) (blocks : List String) : Prop where
  joined : ".".intercalate blocks = address
  some_block : blocks ≠ []
  undotted : ∀ b ∈ blocks, '.' ∉ b.toList

theorem blocks_iff {address : String} {blocks : List String} :
    Blocks address blocks ↔ blocks = splitText "." address := by
  have hdot : ".".toList = ['.'] := rfl
  constructor
  · rintro ⟨rfl, hsome, hundotted⟩
    have hpieces : ∀ cs ∈ blocks.map String.toList, ¬ ['.'] <:+: cs := by
      intro cs hcs hin
      obtain ⟨b, hb, rfl⟩ := List.mem_map.1 hcs
      exact hundotted b hb ((List.singleton_infix_iff '.' _).1 hin)
    unfold splitText
    rw [String.toList_intercalate, hdot,
      splitAll_intercalate (unbordered_singleton '.') (List.cons_ne_nil _ _) (by simpa using hsome) hpieces,
      List.map_map]
    exact (List.map_id'' (fun _ => String.ofList_toList) _).symm
  · rintro rfl
    refine ⟨?_, fun he => splitAll_ne_nil _ _ (List.map_eq_nil_iff.1 he), fun b hb => ?_⟩
    · have hpieces : (splitText "." address).map String.toList = splitAll ['.'] address.toList := by
        unfold splitText
        rw [hdot, List.map_map]
        exact List.map_id'' (fun _ => String.toList_ofList) _
      rw [← String.toList_inj, String.toList_intercalate, hpieces, hdot, intercalate_splitAll (List.cons_ne_nil _ _)]
    · obtain ⟨cs, hcs, rfl⟩ := List.mem_map.1 hb
      rw [String.toList_ofList]
      exact fun hm => not_infix_of_mem_splitAll (List.cons_ne_nil _ _) cs hcs ((List.singleton_infix_iff '.' cs).2 hm)

/-! ## Common fronts -/

section

variable {α : Type}

/-- The longest list that both lists begin with. -/
structure IsCommonFront (ws xs ys : List α) : Prop where
  left : ws <+: xs
  right : ws <+: ys
  longest : ∀ vs, vs <+: xs → vs <+: ys → vs.length ≤ ws.length

theorem isCommonFront_nil {xs ys : List α} (h : ∀ x y, xs.head? = some x → ys.head? = some y → x ≠ y) :
    IsCommonFront [] xs ys := by
  refine ⟨List.nil_prefix, List.nil_prefix, fun vs hx hy => ?_⟩
  cases vs with
  | nil => exact Nat.le_refl _
  | cons v vs =>
    obtain ⟨s, rfl⟩ := hx
    obtain ⟨t, rfl⟩ := hy
    exact absurd rfl (h v v rfl rfl)

theorem IsCommonFront.cons {ws xs ys : List α} (h : IsCommonFront ws xs ys) (x : α) :
    IsCommonFront (x :: ws) (x :: xs) (x :: ys) := by
  refine ⟨(List.prefix_cons_inj x).2 h.left, (List.prefix_cons_inj x).2 h.right, fun vs hx hy => ?_⟩
  cases vs with
  | nil => exact Nat.zero_le _
  | cons v vs =>
    rw [List.cons_prefix_cons] at hx hy
    exact Nat.succ_le_succ (h.longest vs hx.2 hy.2)

/-- The elements that are counted as shared are the longest common front. -/
theorem exists_isCommonFront [BEq α] [LawfulBEq α] (xs ys : List α) :
    ∃ ws, IsCommonFront ws xs ys ∧ ws.length = commonLength xs ys := by
  induction xs generalizing ys with
  | nil => exact ⟨[], isCommonFront_nil (by simp), rfl⟩
  | cons x xs ih =>
    cases ys with
    | nil => exact ⟨[], isCommonFront_nil (by simp), rfl⟩
    | cons y ys =>
      rw [commonLength]
      by_cases h : x = y
      · subst h
        obtain ⟨ws, hfront, hlength⟩ := ih ys
        rw [if_pos (beq_self_eq_true x), ← hlength]
        exact ⟨x :: ws, hfront.cons x, rfl⟩
      · rw [if_neg (by simpa using h)]
        exact ⟨[], isCommonFront_nil (by simpa using h), rfl⟩

theorem IsCommonFront.length_eq [BEq α] [LawfulBEq α] {ws xs ys : List α} (h : IsCommonFront ws xs ys) :
    ws.length = commonLength xs ys := by
  obtain ⟨us, hfront, hlength⟩ := exists_isCommonFront xs ys
  have hle := h.longest us hfront.left hfront.right
  have hge := hfront.longest ws h.left h.right
  omega

theorem commonLength_comm [BEq α] [LawfulBEq α] (xs ys : List α) : commonLength xs ys = commonLength ys xs := by
  obtain ⟨ws, hfront, hlength⟩ := exists_isCommonFront xs ys
  have hswapped : IsCommonFront ws ys xs := ⟨hfront.right, hfront.left, fun vs hy hx => hfront.longest vs hx hy⟩
  rw [← hlength, hswapped.length_eq]

end

/-! ## Nearness -/

/-- How near an address is to another: as near as the blocks that both begin with are many, if they have as
many blocks, and else farther than any such address. -/
inductive HasNearness (here target : String) : Int → Prop
  | comparable {xs ys ws : List String} (hx : Blocks here xs) (hy : Blocks target ys) (hl : xs.length = ys.length)
    (h : IsCommonFront ws xs ys) : HasNearness here target ws.length
  | incomparable {xs ys : List String} (hx : Blocks here xs) (hy : Blocks target ys) (hl : xs.length ≠ ys.length) :
    HasNearness here target (-1)

theorem sharedBlocks?_comm (here target : String) : sharedBlocks? here target = sharedBlocks? target here := by
  unfold sharedBlocks?
  simp only [eq_comm (a := (splitText "." here).length), commonLength_comm (splitText "." here)]

theorem hasNearness_nearness (i : Interface) (peer : String) : HasNearness i.address peer (i.nearness peer) := by
  have hx := blocks_iff.2 (rfl : splitText "." i.address = _)
  have hy := blocks_iff.2 (rfl : splitText "." peer = _)
  unfold Interface.nearness sharedBlocks?
  by_cases hl : (splitText "." i.address).length = (splitText "." peer).length
  · obtain ⟨ws, hfront, hlength⟩ := exists_isCommonFront (splitText "." i.address) (splitText "." peer)
    simp only [if_pos hl, ← hlength]
    exact .comparable hx hy hl hfront
  · simp only [if_neg hl]
    exact .incomparable hx hy hl

theorem nearness_eq_iff {i : Interface} {peer : String} {k : Int} :
    i.nearness peer = k ↔ HasNearness i.address peer k := by
  constructor
  · rintro rfl
    exact hasNearness_nearness i peer
  · intro h
    unfold Interface.nearness sharedBlocks?
    cases h with
    | comparable hx hy hl h =>
      obtain rfl := blocks_iff.1 hx
      obtain rfl := blocks_iff.1 hy
      simp only [if_pos hl, h.length_eq]
    | incomparable hx hy hl =>
      obtain rfl := blocks_iff.1 hx
      obtain rfl := blocks_iff.1 hy
      simp only [if_neg hl]

/-! ## The first of the nearest -/

/-- No interface is nearer to the peer, and those in front of this one are farther. -/
def IsFirstNearest (peer : String) (interfaces : List Interface) (best : Interface) : Prop :=
  ∃ before after, interfaces = before ++ best :: after ∧
    (∀ i ∈ interfaces, i.nearness peer ≤ best.nearness peer) ∧ ∀ i ∈ before, i.nearness peer < best.nearness peer

section

variable {peer : String}

theorem IsFirstNearest.cons {interfaces : List Interface} {best i : Interface}
    (h : IsFirstNearest peer interfaces best) (hi : i.nearness peer < best.nearness peer) :
    IsFirstNearest peer (i :: interfaces) best := by
  obtain ⟨before, after, rfl, hall, hbefore⟩ := h
  exact ⟨i :: before, after, rfl, List.forall_mem_cons.2 ⟨Int.le_of_lt hi, hall⟩, List.forall_mem_cons.2 ⟨hi, hbefore⟩⟩

/-- An interface that is no nearer than the one in front of it changes nothing. -/
theorem IsFirstNearest.insert {rest : List Interface} {first best i : Interface}
    (h : IsFirstNearest peer (first :: rest) best) (hi : i.nearness peer ≤ first.nearness peer) :
    IsFirstNearest peer (first :: i :: rest) best := by
  obtain ⟨before, after, heq, hall, hbefore⟩ := h
  rw [List.forall_mem_cons] at hall
  have hmost : ∀ j ∈ first :: i :: rest, j.nearness peer ≤ best.nearness peer :=
    List.forall_mem_cons.2 ⟨hall.1, List.forall_mem_cons.2 ⟨Int.le_trans hi hall.1, hall.2⟩⟩
  cases before with
  | nil =>
    obtain ⟨rfl, rfl⟩ := List.cons.inj heq
    exact ⟨[], i :: rest, rfl, hmost, by simp⟩
  | cons j before =>
    obtain ⟨rfl, rfl⟩ := List.cons.inj heq
    rw [List.forall_mem_cons] at hbefore
    have hless : i.nearness peer < best.nearness peer := Int.lt_of_le_of_lt hi hbefore.1
    exact ⟨first :: i :: before, after, rfl, hmost,
      List.forall_mem_cons.2 ⟨hbefore.1, List.forall_mem_cons.2 ⟨hless, hbefore.2⟩⟩⟩

/-- The search keeps the first of the nearest so far. -/
theorem isFirstNearest_nearestOf (best : Interface) (rest : List Interface) :
    IsFirstNearest peer (best :: rest) (nearestOf peer best rest) := by
  induction rest generalizing best with
  | nil => exact ⟨[], [], rfl, by simp [nearestOf], by simp⟩
  | cons i rest ih =>
    rw [nearestOf]
    split
    · rename_i h
      obtain ⟨-, -, -, hall, -⟩ := ih i
      exact (ih i).cons (Int.lt_of_lt_of_le h (hall i List.mem_cons_self))
    · rename_i h
      exact (ih best).insert (Int.not_lt.1 h)

theorem IsFirstNearest.unique {interfaces : List Interface} {a b : Interface} (ha : IsFirstNearest peer interfaces a)
    (hb : IsFirstNearest peer interfaces b) : a = b := by
  obtain ⟨before, after, rfl, halla, hbeforea⟩ := ha
  obtain ⟨before', after', heq, hallb, hbeforeb⟩ := hb
  have hab := halla b (by simp [heq])
  have hba := hallb a (by simp)
  rcases List.append_eq_append_iff.1 heq with ⟨t, rfl, ht⟩ | ⟨t, rfl, ht⟩
  · cases t with
    | nil => exact (List.cons.inj ht).1
    | cons c t =>
      -- `a` is in front of `b`, hence farther
      obtain ⟨rfl, -⟩ := List.cons.inj ht
      exact absurd (hbeforeb a (by simp)) (Int.not_lt.2 hab)
  · cases t with
    | nil => exact (List.cons.inj ht).1.symm
    | cons c t =>
      obtain ⟨rfl, -⟩ := List.cons.inj ht
      exact absurd (hbeforea b (by simp)) (Int.not_lt.2 hba)

end

/-- Choosing fails just where there is no interface, and else gives the first of the interfaces nearest to
the peer, where nearness is what addresses have in common from the left, block by block. What two addresses
have in common does not depend on their order. -/
theorem nearest_first (interfaces : List Interface) (peer : String) :
    (nearest interfaces peer = .error .noneAvailable ↔ interfaces = []) ∧
    ((∃ best, nearest interfaces peer = .ok best) ↔ interfaces ≠ []) ∧
    (∀ best, nearest interfaces peer = .ok best ↔ IsFirstNearest peer interfaces best) ∧
    (∀ (i : Interface) k, i.nearness peer = k ↔ HasNearness i.address peer k) ∧
    ∀ here target, sharedBlocks? here target = sharedBlocks? target here := by
  have hcommon : (∀ (i : Interface) k, i.nearness peer = k ↔ HasNearness i.address peer k) ∧
      ∀ here target, sharedBlocks? here target = sharedBlocks? target here :=
    ⟨fun _ _ => nearness_eq_iff, sharedBlocks?_comm⟩
  cases interfaces with
  | nil => exact ⟨by simp [nearest], by simp [nearest], by simp [nearest, IsFirstNearest], hcommon⟩
  | cons first rest =>
    have hfirst : IsFirstNearest peer (first :: rest) (nearestOf peer first rest) :=
      isFirstNearest_nearestOf first rest
    refine ⟨by simp [nearest], by simp [nearest], fun best => ⟨fun h => ?_, fun h => ?_⟩, hcommon⟩
    · exact Except.ok.inj h ▸ hfirst
    · exact congrArg Except.ok (hfirst.unique h)

/-- Of two interfaces in the network of the peer the first is taken, behind one that shares less. -/
example : (nearest [⟨"eth0", "10.0.0.2"⟩, ⟨"wlan0", "192.168.1.2"⟩, ⟨"eth1", "192.168.1.3"⟩] "192.168.1.77").toOption =
    some ⟨"wlan0", "192.168.1.2"⟩ := by
  decide

end Upnp.Net
