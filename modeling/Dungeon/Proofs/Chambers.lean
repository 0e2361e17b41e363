import Dungeon.Proofs.Peaks

/-!
# Chambers

A chamber starts as one free point and grows by strips that are free, so all of it is free. What is
free is floor, so chambers are floor, and carving them changes nothing. What is free is also not
claimed, so a chamber keeps off the chambers before it and the rings around them.

Results:
1. `Chambers.grow_filled`: the chamber around a free point is free.
2. `Chambers.grown_chosen`: chambers are chosen one after the other, each against the claims of those
   before it.
3. `Chambers.ofGrid_filled`, `Chambers.ofGrid_ne_nil`: chambers consist of floor, and a cave with
   floor has one.
4. `Chambers.ofGrid_meets`, `Chambers.ofGrid_apart`: chambers keep the padding, and have no point in
   common.
-/

namespace Dungeon.Chambers

/-- The rectangle has sides, and all of its points pass the test. -/
structure Filled (test : Point → Bool) (r : Rect) : Prop where
  width : 1 ≤ r.w
  height : 1 ≤ r.h
  passes : ∀ q, r.contains q = true → test q = true

section Growth

variable {free : Point → Bool} {limit : Int} {r : Rect} {q : Point}

theorem Filled.mono {test : Point → Bool} (h : Filled free r)
    (himp : ∀ q, free q = true → test q = true) : Filled test r :=
  ⟨h.width, h.height, fun q hq => himp q (h.passes q hq)⟩

theorem filled_point (h : free q = true) : Filled free ⟨q.x, q.y, 1, 1⟩ where
  width := le_rfl
  height := le_rfl
  passes := fun p hp => by
    rw [Rect.contains_iff] at hp
    have hpq : p = q := by
      cases p
      cases q
      simp only [Point.mk.injEq]
      simp only at hp
      omega
    exact hpq ▸ h

theorem contains_widen {side : Side} (h : (side.widen r).contains q = true) :
    r.contains q = true ∨ (side.strip r).contains q = true := by
  rw [Rect.contains_iff] at *
  rw [Rect.contains_iff]
  cases side <;> simp only [Side.widen, Side.strip, Rect.right, Rect.bottom] at * <;> omega

theorem Filled.growSide (h : Filled free r) (side : Side) :
    Filled free (growSide free limit r side) := by
  unfold Chambers.growSide
  split
  · next hgrow =>
    refine ⟨?_, ?_, fun q hq => ?_⟩
    · have hwidth := h.width
      cases side <;> simp only [Side.widen] <;> omega
    · have hheight := h.height
      cases side <;> simp only [Side.widen] <;> omega
    · cases contains_widen hq with
      | inl hq => exact h.passes q hq
      | inr hq => exact List.all_eq_true.mp hgrow.2 q (Rect.mem_points.mpr hq)
  · exact h

theorem Filled.growOnce (h : Filled free r) : Filled free (growOnce free limit r) :=
  List.foldlRecOn _ _ h fun _ hr side _ => hr.growSide side

theorem Filled.growFully (h : Filled free r) (rounds : Nat) :
    Filled free (growFully free limit rounds r) := by
  induction rounds generalizing r with
  | zero => exact h
  | succ rounds ih =>
    rw [Chambers.growFully]
    split
    · exact h
    · exact ih h.growOnce

theorem grow_filled {peak : Peak} (h : free peak.point = true) : Filled free (grow free peak) :=
  (filled_point h).growFully _

end Growth

/-! ## The chambers of a cave -/

section Cave

variable {g : Grid} {p : CavernParams} {r : Rect}

theorem isFloor_of_isFree {claimed : List Rect} {q : Point} (h : isFree g claimed q = true) :
    g.isFloor q = true := (Bool.and_eq_true_iff.mp h).1

/-- There may be one more chamber, the peak is free, and the chamber around it is large enough. -/
structure Admits (g : Grid) (p : CavernParams) (chambers : List Rect) (peak : Peak) : Prop where
  count : (chambers.length : Int) < p.maxRooms
  free : isFree g (claims p chambers) peak.point = true
  width : p.minRoom ≤ (grow (isFree g (claims p chambers)) peak).w
  height : p.minRoom ≤ (grow (isFree g (claims p chambers)) peak).h

theorem addChamber_of_admits {chambers : List Rect} {peak : Peak} (h : Admits g p chambers peak) :
    addChamber g p chambers peak = chambers ++ [grow (isFree g (claims p chambers)) peak] := by
  have hcount := h.count
  rw [addChamber, if_neg (by omega)]
  dsimp only
  rw [if_pos h.free, if_pos ⟨h.width, h.height⟩]

theorem addChamber_of_not_admits {chambers : List Rect} {peak : Peak}
    (h : ¬ Admits g p chambers peak) : addChamber g p chambers peak = chambers := by
  unfold addChamber
  split
  · rfl
  · next hcount =>
    dsimp only
    split
    · next hfree =>
      split
      · next hlarge => exact absurd ⟨not_le.mp hcount, hfree, hlarge.1, hlarge.2⟩ h
      · rfl
    · rfl

/-- Chambers chosen one after the other: each stands around a peak that is free of the claims of
those before it, and is grown into what they leave free. -/
inductive Chosen (g : Grid) (p : CavernParams) : List Rect → Prop
  | none : Chosen g p []
  | more {chambers : List Rect} {peak : Peak} : Chosen g p chambers → peak ∈ peaks g →
      Admits g p chambers peak →
      Chosen g p (chambers ++ [grow (isFree g (claims p chambers)) peak])

namespace Chosen

variable {chambers : List Rect}

theorem filled (h : Chosen g p chambers) : ∀ r ∈ chambers, Filled g.isFloor r := by
  induction h with
  | none =>
    intro r hr
    cases hr
  | more _ _ hadmits ih =>
    refine List.forall_mem_append.mpr ⟨ih, List.forall_mem_singleton.mpr ?_⟩
    exact (grow_filled hadmits.free).mono fun q => isFloor_of_isFree

/-- A chamber takes only what is free, so it keeps off the rings of the chambers before it. -/
theorem meets_eq_false (hpadding : 0 ≤ p.roomPadding) (h : Chosen g p chambers) :
    chambers.Pairwise fun r t => r.meets t p.roomPadding = false := by
  induction h with
  | none => exact .nil
  | @more chambers peak hchosen _ hadmits ih =>
    refine List.pairwise_append.mpr ⟨ih, List.pairwise_singleton _ _, fun c hc r hr => ?_⟩
    rw [List.mem_singleton.mp hr]
    have hgrown := grow_filled hadmits.free
    have hc' := hchosen.filled c hc
    refine Rect.meets_eq_false_of_apart hpadding (by linarith [hc'.width])
      (by linarith [hc'.height]) (by linarith [hgrown.width]) (by linarith [hgrown.height])
      fun q hq => ?_
    cases hin : (grow (isFree g (claims p chambers)) peak).contains q with
    | false => rfl
    | true =>
      have hunclaimed := (Bool.and_eq_true_iff.mp (hgrown.passes q hin)).2
      have hclaimed := List.all_eq_true.mp hunclaimed (c.grow p.roomPadding)
        (List.mem_map_of_mem hc)
      rw [hq] at hclaimed
      cases hclaimed

end Chosen

theorem grown_chosen (g : Grid) (p : CavernParams) : Chosen g p (grown g p) := by
  refine List.foldlRecOn (motive := Chosen g p) _ _ .none fun chambers h peak hpeak => ?_
  by_cases hadmits : Admits g p chambers peak
  · rw [addChamber_of_admits hadmits]
    exact h.more (mem_ranked.mp hpeak) hadmits
  · rwa [addChamber_of_not_admits hadmits]

theorem ofGrid_of_grown (h : grown g p ≠ []) : ofGrid g p = grown g p := by
  rw [ofGrid]
  cases hgrown : grown g p with
  | nil => exact absurd hgrown h
  | cons r rest => rfl

/-- The chambers of a cave consist of its floor. -/
theorem ofGrid_filled (h : r ∈ ofGrid g p) : Filled g.isFloor r := by
  unfold ofGrid at h
  split at h
  · rw [Option.mem_toList, Option.map_eq_some_iff] at h
    obtain ⟨q, hq, rfl⟩ := h
    exact filled_point (List.find?_some hq)
  · exact (grown_chosen g p).filled r h

/-- No two chambers come nearer than the padding. -/
theorem ofGrid_meets (g : Grid) (hpadding : 0 ≤ p.roomPadding) :
    (ofGrid g p).Pairwise fun r t => r.meets t p.roomPadding = false := by
  unfold ofGrid
  split
  · cases g.points.find? fun q => g.isFloor q with
    | none => exact .nil
    | some q => exact List.pairwise_singleton _ _
  · exact (grown_chosen g p).meets_eq_false hpadding

/-- No two chambers have a point in common. -/
theorem ofGrid_apart (g : Grid) (hpadding : 0 ≤ p.roomPadding) :
    (ofGrid g p).Pairwise Rect.Apart :=
  (ofGrid_meets g hpadding).imp fun h => .of_meets hpadding h

/-- A cave with floor has a chamber. -/
theorem ofGrid_ne_nil (h : g.floor.Nonempty) : ofGrid g p ≠ [] := by
  obtain ⟨q, hq⟩ := h
  unfold ofGrid
  split
  · -- No chamber was large enough, and the first floor point is taken for one.
    intro hnil
    rw [Option.toList_eq_nil_iff, Option.map_eq_none_iff, List.find?_eq_none] at hnil
    exact hnil q (Grid.mem_points.mpr (Grid.inBounds_of_mem_floor hq)) hq
  · next hne => exact hne

end Cave

end Dungeon.Chambers
