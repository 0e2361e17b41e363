import Mathlib
import Dungeon.Proofs.Draw

/-!
# Shuffling

A shuffle swaps every position, from the last one on, with one that is not behind it. The choices
can be told from where the items end up: the first swap is the only one that touches the last
position, so the item found there tells which position was chosen for it, and the next choice is
told in the same way from what is in front. So every arrangement comes from exactly one list of
choices.

Results:
1. `eq_of_swapDown_eq`, `exists_swapDown_eq`: no two lists of choices lead to one arrangement, and
   every arrangement is reached.
2. `rearranged_eq_map`: items are moved by their positions, whatever they are.
3. `Draw.shuffle_run`: a shuffle takes one word for each position but the first.
4. `Draw.shuffle_bijective`: choices and arrangements, also of items that are not distinct.
-/

namespace Dungeon

/-- Positions to swap with, for the positions from a given one down to 1. None is behind its own. -/
inductive Downward : Nat → List Nat → Prop where
  | nil : Downward 0 []
  | cons {n j : Nat} {rest : List Nat} (hj : j ≤ n + 1) (hrest : Downward n rest) :
      Downward (n + 1) (j :: rest)

section Swaps

variable {α β : Type} {n j : Nat} {choices rest : List Nat} {items : Array α}

/-! ## One swap -/

theorem getElem?_swap (i j k : Nat) (hi : i < items.size) (hj : j < items.size) :
    (items.swap i j)[k]? = items[Equiv.swap i j k]? := by
  rw [Array.getElem?_swap, Equiv.swap_apply_def, ← Array.getElem?_eq_getElem hi,
    ← Array.getElem?_eq_getElem hj]
  simp only [eq_comm (b := k)]
  split_ifs with hkj hki
  · rw [← hki, hkj]
  · rfl
  · rfl
  · rfl

theorem getElem?_swapIfInBounds (hj : j ≤ n) (hn : n < items.size) (k : Nat) :
    (items.swapIfInBounds n j)[k]? = items[Equiv.swap n j k]? := by
  rw [Array.swapIfInBounds, dif_pos hn, dif_pos (hj.trans_lt hn), getElem?_swap]

theorem swapIfInBounds_perm (items : Array α) (i j : Nat) :
    (items.swapIfInBounds i j).toList.Perm items.toList := by
  unfold Array.swapIfInBounds
  split
  · split
    · exact Array.perm_iff_toList_perm.mp (Array.swap_perm _ _)
    · rfl
  · rfl

theorem le_size_swapIfInBounds (hn : n + 1 ≤ items.size - 1) (i j : Nat) :
    n ≤ (items.swapIfInBounds i j).size - 1 := by
  rw [Array.size_swapIfInBounds]
  omega

theorem map_swapIfInBounds (f : α → β) (items : Array α) (i j : Nat) :
    (items.map f).swapIfInBounds i j = (items.swapIfInBounds i j).map f := by
  simp only [Array.swapIfInBounds, Array.size_map]
  split
  · split
    · refine Array.ext_getElem? fun k => ?_
      rw [getElem?_swap, Array.getElem?_map, Array.getElem?_map, getElem?_swap]
    · rfl
  · rfl

/-! ## All swaps -/

theorem swapDown_perm (n : Nat) (choices : List Nat) (items : Array α) :
    (swapDown n choices items).toList.Perm items.toList := by
  induction choices generalizing n items with
  | nil => rfl
  | cons j rest ih => exact (ih _ _).trans (swapIfInBounds_perm items n j)

theorem map_swapDown (f : α → β) (n : Nat) (choices : List Nat) (items : Array α) :
    swapDown n choices (items.map f) = (swapDown n choices items).map f := by
  induction choices generalizing n items with
  | nil => rfl
  | cons j rest ih => rw [swapDown, swapDown, map_swapIfInBounds, ih]

theorem swapDown_succ (n j : Nat) (rest : List Nat) (items : Array α) :
    swapDown (n + 1) (j :: rest) items = swapDown n rest (items.swapIfInBounds (n + 1) j) := rfl

/-- What is behind the first position stays. -/
theorem getElem?_swapDown_of_lt (h : Downward n choices) (hn : n ≤ items.size - 1) {i : Nat}
    (hi : n < i) : (swapDown n choices items)[i]? = items[i]? := by
  induction h generalizing items with
  | nil => rfl
  | @cons n j rest hj _ ih =>
    have hsize := le_size_swapIfInBounds hn (n + 1) j
    rw [swapDown_succ, ih hsize (by omega), getElem?_swapIfInBounds hj (by omega),
      Equiv.swap_apply_of_ne_of_ne (by omega) (by omega)]

/-- The first swap settles which item comes to the first position. -/
theorem getElem?_swapDown_self (hj : j ≤ n + 1) (hrest : Downward n rest)
    (hn : n + 1 ≤ items.size - 1) :
    (swapDown (n + 1) (j :: rest) items)[n + 1]? = items[j]? := by
  have hsize := le_size_swapIfInBounds hn (n + 1) j
  rw [swapDown_succ, getElem?_swapDown_of_lt hrest hsize (Nat.lt_succ_self n),
    getElem?_swapIfInBounds hj (by omega), Equiv.swap_apply_left]

/-! ## Each arrangement once -/

/-- From the arrangement all positions to swap with can be told, the first one first. -/
theorem eq_of_swapDown_eq {others : List Nat} (h : Downward n choices) (hothers : Downward n others)
    (hn : n ≤ items.size - 1) (hitems : items.toList.Nodup)
    (heq : swapDown n choices items = swapDown n others items) : choices = others := by
  induction h generalizing items others with
  | nil =>
    cases hothers
    rfl
  | @cons n j rest hj hrest ih =>
    obtain _ | ⟨hi, hothers⟩ := hothers
    next i others =>
    have hplace : items[j]? = items[i]? := by
      rw [← getElem?_swapDown_self hj hrest hn, heq, getElem?_swapDown_self hi hothers hn]
    have hsame : j = i := by
      rw [← Array.getElem?_toList, ← Array.getElem?_toList] at hplace
      exact (List.getElem?_inj (by rw [Array.length_toList]; omega) hitems).mp hplace
    subst hsame
    have hsize := le_size_swapIfInBounds hn (n + 1) j
    rw [ih hothers hsize ((swapIfInBounds_perm items (n + 1) j).nodup_iff.mpr hitems) heq]

/-- Where the arrangement agrees with the items behind a position, the item on this position comes
from one that is not behind it either. -/
theorem exists_getElem?_eq {arranged : List α} (hperm : arranged.Perm items.toList)
    (hitems : items.toList.Nodup) (hbehind : ∀ i, n < i → arranged[i]? = items[i]?) :
    ∃ j ≤ n, items[j]? = arranged[n]? := by
  have hlength : arranged.length = items.size := hperm.length_eq.trans items.length_toList
  rcases Nat.lt_or_ge n items.size with hn | hn
  · have hmem : arranged[n] ∈ items.toList := hperm.mem_iff.mp (List.getElem_mem (by omega))
    obtain ⟨j, hj, hjn⟩ := List.getElem_of_mem hmem
    have hplace : items[j]? = arranged[n]? := by
      rw [← Array.getElem?_toList, List.getElem?_eq_getElem hj, hjn, List.getElem?_eq_getElem]
    refine ⟨j, Nat.le_of_not_lt fun hlt => ?_, hplace⟩
    -- Otherwise the item would stand on two positions of the arrangement.
    have htwice : arranged[n]? = arranged[j]? := by rw [hbehind j hlt, hplace]
    have hsame := (List.getElem?_inj (by omega) (hperm.nodup_iff.mpr hitems)).mp htwice
    omega
  · refine ⟨n, le_rfl, ?_⟩
    rw [Array.getElem?_eq_none hn, List.getElem?_eq_none (hlength.trans_le hn)]

/-- The positions to swap with are found from the back on: each is that of the item which the
arrangement has there. -/
theorem exists_swapDown_eq (n : Nat) {arranged : List α} (hperm : arranged.Perm items.toList)
    (hn : n ≤ items.size - 1) (hitems : items.toList.Nodup)
    (hbehind : ∀ i, n < i → arranged[i]? = items[i]?) :
    ∃ choices, Downward n choices ∧ (swapDown n choices items).toList = arranged := by
  induction n generalizing items with
  | zero =>
    refine ⟨[], .nil, List.ext_getElem? fun i => ?_⟩
    show items.toList[i]? = arranged[i]?
    rw [Array.getElem?_toList]
    cases i with
    | zero =>
      obtain ⟨j, hj, hplace⟩ := exists_getElem?_eq hperm hitems hbehind
      rwa [Nat.le_zero.mp hj] at hplace
    | succ i => exact (hbehind (i + 1) (Nat.succ_pos i)).symm
  | succ n ih =>
    obtain ⟨j, hj, hplace⟩ := exists_getElem?_eq hperm hitems hbehind
    have hswapped := swapIfInBounds_perm items (n + 1) j
    have hsize := le_size_swapIfInBounds hn (n + 1) j
    obtain ⟨rest, hrest, harranged⟩ := ih (hperm.trans hswapped.symm) hsize
      (hswapped.nodup_iff.mpr hitems) fun i hi => by
        rw [getElem?_swapIfInBounds hj (by omega)]
        rcases Nat.eq_or_lt_of_le hi with rfl | hlt
        · rw [Equiv.swap_apply_left, hplace]
        · rw [Equiv.swap_apply_of_ne_of_ne (by omega) (by omega), hbehind i hlt]
    exact ⟨j :: rest, .cons hj hrest, harranged⟩

end Swaps

/-! ## Shuffled lists -/

section Lists

variable {α β : Type}

/-- The items after swaps with the chosen positions, from the last item on. -/
def rearranged (items : List α) (choices : List Nat) : List α :=
  (swapDown (items.length - 1) choices items.toArray).toList

theorem rearranged_perm (items : List α) (choices : List Nat) :
    (rearranged items choices).Perm items :=
  swapDown_perm (items.length - 1) choices items.toArray

/-- Which item is where makes no difference to how positions are swapped. -/
theorem rearranged_map (f : α → β) (items : List α) (choices : List Nat) :
    rearranged (items.map f) choices = (rearranged items choices).map f := by
  rw [rearranged, List.length_map, ← List.map_toArray, map_swapDown, Array.toList_map, rearranged]

theorem rearranged_eq_map (items : List α) (choices : List Nat) :
    rearranged items choices = (rearranged (List.finRange items.length) choices).map items.get := by
  rw [← rearranged_map, List.map_get_finRange]

theorem rearranged_bijOn {items : List α} (hitems : items.Nodup) :
    Set.BijOn (rearranged items) {choices | Downward (items.length - 1) choices}
      {arranged | arranged.Perm items} := by
  have hsize : items.length - 1 ≤ items.toArray.size - 1 := le_rfl
  refine ⟨fun choices _ => rearranged_perm items choices, fun choices h others hothers heq => ?_,
    fun arranged hperm => ?_⟩
  · exact eq_of_swapDown_eq h hothers hsize hitems (Array.toList_inj.mp heq)
  · refine exists_swapDown_eq (items.length - 1) hperm hsize hitems fun i hi => ?_
    -- Nothing is behind the last position.
    have hbehind : items.length ≤ i := by omega
    rw [List.getElem?_eq_none (hperm.length_eq.trans_le hbehind), Array.getElem?_eq_none hbehind]

/-- Equal items make no arrangement unreachable: some arrangement of the positions leads to it. -/
theorem exists_rearranged_eq {items arranged : List α} (hperm : arranged.Perm items) :
    ∃ choices, Downward (items.length - 1) choices ∧ rearranged items choices = arranged := by
  have hpositions : arranged.Perm ((List.finRange items.length).map items.get) := by
    rwa [List.map_get_finRange]
  obtain ⟨order, rfl, horder⟩ := (congrFun₂ (List.eq_map_comp_perm items.get) arranged
    (List.finRange items.length)).mpr hpositions
  obtain ⟨choices, h, hchoices⟩ :=
    (rearranged_bijOn (List.nodup_finRange items.length)).surjOn horder
  rw [List.length_finRange] at h
  exact ⟨choices, h, by rw [rearranged_eq_map, hchoices]⟩

theorem Draw.swaps_ensures (n : Nat) : (Draw.swaps n).Ensures (Downward n) := by
  induction n with
  | zero => exact .pure .nil
  | succ n ih =>
    refine (Draw.between_ensures (by omega)).bind fun j hj => ih.bind fun rest hrest => ?_
    exact .pure (.cons (by omega) hrest)

theorem Draw.shuffle_run (items : List α) (s : Source) :
    (Draw.shuffle items).run s =
      (rearranged items ((Draw.swaps (items.length - 1)).run s).1,
        Source.next^[items.length - 1] s) := by
  rw [← Draw.swaps_run_snd]
  rfl

/-- The choices of a shuffle are one position for each item but the first, its own or one in front
of it. Of distinct items, each arrangement comes from one list of choices. Of any items, each
arrangement of their positions does, so that every arrangement of them is reached, and nothing else.
A shuffle draws such choices, one word for each. -/
theorem Draw.shuffle_bijective (items : List α) :
    (items.Nodup → Set.BijOn (rearranged items) {choices | Downward (items.length - 1) choices}
        {arranged | arranged.Perm items}) ∧
      (∀ order : Equiv.Perm (Fin items.length), ∃! choices, Downward (items.length - 1) choices ∧
        rearranged (List.finRange items.length) choices =
          (List.finRange items.length).map order) ∧
      (∀ choices, rearranged items choices =
        (rearranged (List.finRange items.length) choices).map items.get) ∧
      (∀ arranged : List α, arranged.Perm items →
        ∃ choices, Downward (items.length - 1) choices ∧ rearranged items choices = arranged) ∧
      ∀ s : Source,
        let choices := ((Draw.swaps (items.length - 1)).run s).1
        Downward (items.length - 1) choices ∧
          (Draw.shuffle items).run s =
            (rearranged items choices, Source.next^[items.length - 1] s) ∧
          (rearranged items choices).Perm items := by
  refine ⟨rearranged_bijOn, fun order => ?_, rearranged_eq_map items,
    fun arranged => exists_rearranged_eq, fun s => ?_⟩
  · have hbij := rearranged_bijOn (List.nodup_finRange items.length)
    rw [List.length_finRange] at hbij
    obtain ⟨choices, h, hchoices⟩ := hbij.surjOn order.map_finRange_perm
    refine ⟨choices, ⟨h, hchoices⟩, fun others hothers => ?_⟩
    exact hbij.injOn hothers.1 h (hothers.2.trans hchoices.symm)
  · exact ⟨Draw.swaps_ensures (items.length - 1) s, Draw.shuffle_run items s,
      rearranged_perm items _⟩

/-- The only choices that turn three items around, and a list with an item twice. -/
theorem Draw.shuffle_bijective_three :
    [10, 20, 30].Nodup ∧ Downward 2 [0, 1] ∧ rearranged [10, 20, 30] [0, 1] = [30, 20, 10] ∧
      (∀ choices, Downward 2 choices → rearranged [10, 20, 30] choices = [30, 20, 10] →
        choices = [0, 1]) ∧
      (∃ choices, Downward 2 choices ∧ rearranged [7, 7, 8] choices = [8, 7, 7]) ∧
      ((Draw.shuffle [10, 20, 30]).run (Source.ofSeed 5)).2 =
        Source.next^[2] (Source.ofSeed 5) := by
  have hdistinct : [10, 20, 30].Nodup := by decide
  have hchoices : Downward 2 [0, 1] := .cons (by decide) (.cons (by decide) .nil)
  have hturned : rearranged [10, 20, 30] [0, 1] = [30, 20, 10] := by decide
  obtain ⟨hbij, -, -, -, hrun⟩ := Draw.shuffle_bijective [10, 20, 30]
  obtain ⟨-, -, -, hreached, -⟩ := Draw.shuffle_bijective [7, 7, 8]
  refine ⟨hdistinct, hchoices, hturned, fun choices h heq => ?_, hreached [8, 7, 7] (by decide), ?_⟩
  · exact (hbij hdistinct).injOn h hchoices (heq.trans hturned.symm)
  · rw [(hrun (Source.ofSeed 5)).2.1]
    rfl

end Lists
end Dungeon
