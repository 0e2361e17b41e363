import Dungeon.Proofs.Generate

/-!
# The number of leaves

How many leaves a partition has hangs on the draws, but the size of the map, the least leaf and the
depth set limits. From above these are the leaves of a full binary tree, and the least leaves that
fit side by side. From below the reason is that a part is only left uncut if both its sides are
short, or if there are as many cuts above it as the depth allows.

Templates that ask for more rooms than the upper limit always fail, and those that ask for no more
than the lower one never do.

Results:
1. `Partition.Drawn.leafCount_le_two_pow`, `Partition.Drawn.leafCount_le_slots`: the upper limits.
2. `Partition.Drawn.depth_lt_or_area_le`: the lower limits.
3. `Layout.partition_leaves`: the limits for the layout of an accepted template, and what follows
   for its generations.
-/

namespace Dungeon

namespace Partition

theorem leafCount_pos (t : Partition) : 0 < t.leafCount := by
  induction t with
  | leaf room => exact Nat.one_pos
  | cut first second corridor ih _ => exact Nat.add_pos_left ih _

/-! ## Parts of a rectangle -/

section Split

variable {axis : Axis} {r : Rect} {length minLeaf : Int}

theorem Axis.area_split (axis : Axis) (r : Rect) (length : Int) :
    (axis.split r length).1.area + (axis.split r length).2.area = r.area := by
  cases axis with
  | columns =>
    simp only [split, Rect.area]
    ring
  | rows =>
    simp only [split, Rect.area]
    ring

/-- How many least leaves fit into a rectangle in columns and rows. -/
def slots (minLeaf : Int) (r : Rect) : Int := r.w / minLeaf * (r.h / minLeaf)

theorem ediv_add_ediv_le (a b : Int) {c : Int} (hc : 0 < c) : a / c + b / c ≤ (a + b) / c := by
  have ha := Int.ediv_mul_le a hc.ne'
  have hb := Int.ediv_mul_le b hc.ne'
  refine Int.le_ediv_of_mul_le hc ?_
  rw [add_mul]
  exact add_le_add ha hb

theorem Axis.slots_split (hleaf : 0 < minLeaf) (hw : 0 ≤ r.w) (hh : 0 ≤ r.h) :
    slots minLeaf (axis.split r length).1 + slots minLeaf (axis.split r length).2
      ≤ slots minLeaf r := by
  cases axis with
  | columns =>
    have hsum := ediv_add_ediv_le length (r.w - length) hleaf
    rw [add_sub_cancel] at hsum
    simp only [split, slots]
    rw [← add_mul]
    exact mul_le_mul_of_nonneg_right hsum (Int.ediv_nonneg hh hleaf.le)
  | rows =>
    have hsum := ediv_add_ediv_le length (r.h - length) hleaf
    rw [add_sub_cancel] at hsum
    simp only [split, slots]
    rw [← mul_add]
    exact mul_le_mul_of_nonneg_left hsum (Int.ediv_nonneg hw hleaf.le)

theorem one_le_slots (hleaf : 0 < minLeaf) (hw : minLeaf ≤ r.w) (hh : minLeaf ≤ r.h) :
    1 ≤ slots minLeaf r := by
  have hcolumns : 1 ≤ r.w / minLeaf := Int.le_ediv_of_mul_le hleaf (by omega)
  have hrows : 1 ≤ r.h / minLeaf := Int.le_ediv_of_mul_le hleaf (by omega)
  exact one_le_mul_of_one_le_of_one_le hcolumns hrows

/-- Where no cut is possible, both sides are shorter than two least leaves. -/
theorem area_le_of_canCut_eq_false (hh : 0 ≤ r.h) (hleaf : 0 < minLeaf)
    (hstop : ∀ axis : Axis, axis.canCut minLeaf r = false) : r.area ≤ (2 * minLeaf - 1) ^ 2 := by
  have hcolumns := hstop .columns
  have hrows := hstop .rows
  rw [Axis.canCut, decide_eq_false_iff_not] at hcolumns hrows
  simp only [Axis.extent] at hcolumns hrows
  calc r.w * r.h ≤ (2 * minLeaf - 1) * (2 * minLeaf - 1) :=
        mul_le_mul (by omega) (by omega) hh (by omega)
    _ = (2 * minLeaf - 1) ^ 2 := (sq _).symm

end Split

/-! ## Limits -/

section Drawn

variable {p : PartitionParams} {depth id : Nat} {r : Rect} {t : Partition}

theorem Drawn.leafCount_le_two_pow (h : Drawn p depth id r t) : t.leafCount ≤ 2 ^ depth := by
  induction h with
  | leaf _ _ _ => exact Nat.one_le_two_pow
  | @cut depth id r first second axis length link bend _ _ _ _ _ _ ih ih' =>
    calc first.leafCount + second.leafCount ≤ 2 ^ depth + 2 ^ depth := Nat.add_le_add ih ih'
      _ = 2 ^ (depth + 1) := by ring

/-- Every leaf takes up at least one slot, and the slots of two parts are slots of the whole. -/
theorem Drawn.leafCount_le_slots (hleaf : 0 < p.minLeaf) (hw : p.minLeaf ≤ r.w)
    (hh : p.minLeaf ≤ r.h) (h : Drawn p depth id r t) :
    (t.leafCount : Int) ≤ slots p.minLeaf r := by
  induction h with
  | leaf _ _ _ => exact one_le_slots hleaf hw hh
  | @cut depth id r first second axis length link bend _ least greatest _ _ _ ih ih' =>
    obtain ⟨⟨hw₁, hh₁⟩, hw₂, hh₂⟩ := axis.le_split le_rfl hw hh least greatest
    rw [leafCount, Nat.cast_add]
    calc (first.leafCount : Int) + second.leafCount
        ≤ slots p.minLeaf (axis.split r length).1 + slots p.minLeaf (axis.split r length).2 :=
        add_le_add (ih hw₁ hh₁) (ih' hw₂ hh₂)
      _ ≤ slots p.minLeaf r := Axis.slots_split hleaf (hleaf.le.trans hw) (hleaf.le.trans hh)

/-- Either some leaf is as deep as can be, and every cut above it has a leaf on its other side, or no
leaf could be cut, and all of them are small. -/
theorem Drawn.depth_lt_or_area_le (hleaf : 0 < p.minLeaf) (hw : p.minLeaf ≤ r.w)
    (hh : p.minLeaf ≤ r.h) (h : Drawn p depth id r t) :
    depth < t.leafCount ∨ r.area ≤ t.leafCount * (2 * p.minLeaf - 1) ^ 2 := by
  induction h with
  | leaf _ _ stop =>
    rcases stop with rfl | stop
    · exact .inl Nat.one_pos
    · right
      rw [leafCount, Nat.cast_one, one_mul]
      exact area_le_of_canCut_eq_false (hleaf.le.trans hh) hleaf stop
  | @cut depth id r first second axis length link bend _ least greatest _ _ _ ih ih' =>
    obtain ⟨⟨hw₁, hh₁⟩, hw₂, hh₂⟩ := axis.le_split le_rfl hw hh least greatest
    have hfirst := first.leafCount_pos
    have hsecond := second.leafCount_pos
    rw [leafCount]
    rcases ih hw₁ hh₁ with hdeep | harea
    · left
      omega
    · rcases ih' hw₂ hh₂ with hdeep | harea'
      · left
        omega
      · right
        rw [← axis.area_split r length]
        push_cast
        rw [add_mul]
        exact add_le_add harea harea'

end Drawn

end Partition

namespace PartitionParams

/-- No partition of a map of a size has fewer leaves. -/
def leastLeaves (p : PartitionParams) (width height : Int) : Int :=
  min (p.maxDepth + 1) ⌈(width * height : ℚ) / (2 * p.minLeaf - 1) ^ 2⌉

/-- No partition of a map of a size has more leaves. -/
def mostLeaves (p : PartitionParams) (width height : Int) : Int :=
  min (2 ^ p.maxDepth.toNat) (width / p.minLeaf * (height / p.minLeaf))

variable {p : PartitionParams} {width height : Int} {t : Partition}

theorem leafCount_le_mostLeaves (h : p.Sound width height) {id : Nat}
    (ht : Partition.Drawn p p.maxDepth.toNat id ⟨0, 0, width, height⟩ t) :
    (t.leafCount : Int) ≤ p.mostLeaves width height := by
  refine le_min ?_ (ht.leafCount_le_slots h.minLeaf_pos h.width h.height)
  exact_mod_cast ht.leafCount_le_two_pow

theorem leastLeaves_le_leafCount (h : p.Sound width height) {id : Nat}
    (ht : Partition.Drawn p p.maxDepth.toNat id ⟨0, 0, width, height⟩ t) :
    p.leastLeaves width height ≤ t.leafCount := by
  have hleaf := h.minLeaf_pos
  rcases ht.depth_lt_or_area_le hleaf h.width h.height with hdeep | harea
  · refine (min_le_left _ _).trans ?_
    omega
  · refine (min_le_right _ _).trans (Int.ceil_le.mpr ?_)
    have hside : (0 : ℚ) < 2 * p.minLeaf - 1 := by
      have hpos : 0 < 2 * p.minLeaf - 1 := by omega
      exact_mod_cast hpos
    rw [div_le_iff₀ (pow_pos hside 2)]
    exact_mod_cast harea

end PartitionParams

/-! ## The layout and its generations -/

/-- A layout leaves as many rooms as leaves, within the limits, and fails just if they are too few. -/
theorem Layout.partition_ensures_leaves {p : PartitionParams} {m : Map} (report : Report)
    (h : p.Sound m.grid.width m.grid.height) :
    (Layout.partition p m report).Ensures fun laid =>
      ((laid.map.rooms.length : Int) = laid.report.leaves ∧
        p.leastLeaves m.grid.width m.grid.height ≤ laid.report.leaves ∧
        laid.report.leaves ≤ p.mostLeaves m.grid.width m.grid.height) ∧
      (p.minRooms ≤ laid.report.leaves ∧ laid.fault = none ∨
        laid.report.leaves < p.minRooms ∧ laid.fault ≠ none ∧
          laid.report.failure = some .generationTimeout) := by
  refine (Layout.partition_drawn report h).mono fun laid hlaid => ?_
  obtain ⟨tree, htree, rfl⟩ := hlaid
  have hleast := p.leastLeaves_le_leafCount h htree
  have hmost := p.leafCount_le_mostLeaves h htree
  rw [← tree.length_rooms] at hleast hmost
  split
  · next hfew => exact ⟨⟨rfl, hleast, hmost⟩, .inr ⟨hfew, Option.some_ne_none _, rfl⟩⟩
  · next henough => exact ⟨⟨rfl, hleast, hmost⟩, .inl ⟨Int.not_lt.mp henough, rfl⟩⟩

/-- The layout of an accepted template leaves as many rooms as leaves, and their number keeps to the
limits. So a generation always runs out of rooms if more are asked for than there can be, and always
succeeds if no more are asked for than there must be. -/
theorem Layout.partition_leaves (a : Template) (haccepted : a.fault? = none)
    (halgorithm : a.algorithm = .partition) :
    let p := a.partition
    (∀ (m : Map) (report : Report) (s : Source), m.grid.width = a.width → m.grid.height = a.height →
      let laid := ((Layout.partition p m report).run s).1
      (laid.map.rooms.length : Int) = laid.report.leaves ∧
        p.leastLeaves a.width a.height ≤ laid.report.leaves ∧
        laid.report.leaves ≤ p.mostLeaves a.width a.height) ∧
      (p.mostLeaves a.width a.height < p.minRooms → ∀ (h : Handover) (seed : UInt32),
        (h.generate seed a).1 = false ∧
          (h.generate seed a).2.report.failure = some .generationTimeout) ∧
      (p.minRooms ≤ p.leastLeaves a.width a.height → ∀ (h : Handover) (seed : UInt32),
        (h.generate seed a).1 = true) := by
  have hsound := Template.partition_accepted haccepted halgorithm
  have hlaid := fun seed => Layout.partition_ensures_leaves (m := Map.blank seed a) {} hsound
    (.ofSeed seed)
  simp only [← Template.laid_partition halgorithm] at hlaid
  refine ⟨fun m report s hwidth hheight => ?_, fun hmany h seed => ?_, fun hfew h seed => ?_⟩
  · rw [← hwidth, ← hheight] at hsound ⊢
    exact (Layout.partition_ensures_leaves report hsound s).1
  · obtain ⟨⟨_, _, hmost⟩, ⟨henough, _⟩ | ⟨_, hfault, hfailure⟩⟩ := hlaid seed
    · exact absurd (henough.trans hmost) (Int.not_le.mpr hmany)
    · refine ⟨?_, (congrArg Report.failure (Handover.report_generate haccepted)).trans hfailure⟩
      rw [← Bool.not_eq_true, Handover.generate_ok_iff]
      exact fun hok => hfault hok.2
  · obtain ⟨⟨_, hleast, _⟩, ⟨_, hfault⟩ | ⟨htoofew, _⟩⟩ := hlaid seed
    · exact Handover.generate_ok_iff.mpr ⟨haccepted, hfault⟩
    · exact absurd (hfew.trans hleast) (Int.not_le.mpr htoofew)

/-- A partition of the default map has at least 5 leaves and at most 16: two rooms can always be had,
and 17 never. -/
theorem Layout.partition_leaves_default :
    (Handover.generate {} 1 {}).1 = true ∧
      (Handover.generate {} 1 { partition := { minRooms := 17 } }).1 = false :=
  ⟨(Layout.partition_leaves {} (by decide) rfl).2.2 (by decide +kernel) {} 1,
    ((Layout.partition_leaves { partition := { minRooms := 17 } } (by decide) rfl).2.1
      (by decide +kernel) {} 1).1⟩

end Dungeon
