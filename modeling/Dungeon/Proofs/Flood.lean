import Dungeon.Proofs.Search

/-!
# The marks of a flood

A flood answers with one mark for every tile, row by row. Which tile a mark is about is told by
division: the quotient by the width is the row, and the remainder is the column. So the last tile of
a row and the first tile of the next have neighbouring marks without being neighbours themselves.

Results:
1. `Grid.inBounds_pointAt`, `Grid.index_pointAt`: every place up to the number of tiles is that of a
   point inside.
2. `Grid.flood_joined`: joined starts are flooded alike.
3. `Grid.flood_exact`: the marks are those of the floor joined to the start, entry by entry.
-/

namespace Dungeon.Grid

variable {g : Grid} {start other : Point}

/-! ## Places -/

/-- The point whose tile has a place, counted row by row. -/
def pointAt (g : Grid) (i : Nat) : Point := ⟨i % g.width, i / g.width⟩

theorem inBounds_pointAt (hwidth : 0 < g.width) {i : Nat} (hi : (i : Int) < g.width * g.height) :
    g.inBounds (g.pointAt i) = true := by
  rw [inBounds_iff]
  refine ⟨Int.emod_nonneg _ hwidth.ne', Int.ediv_nonneg (Int.natCast_nonneg i) hwidth.le,
    Int.emod_lt_of_pos _ hwidth, ?_⟩
  exact Int.ediv_lt_of_lt_mul hwidth (by rwa [Int.mul_comm])

theorem index_pointAt (g : Grid) (i : Nat) : g.index (g.pointAt i) = i := by
  rw [index, pointAt, Int.ediv_mul_add_emod, Int.toNat_natCast]

/-! ## Floods -/

theorem size_flood (g : Grid) (start : Point) : (g.flood start).size = g.tiles.size := by
  unfold flood
  split
  · next hstart =>
    have hclosed : g.ClosedMarks g.unmarked := fun a b _ ha => by
      rw [isMarked_unmarked] at ha
      cases ha
    exact (exploreFrom_spec hstart (by simp [unmarked]) hclosed (isMarked_unmarked g start)).1
  · simp [unmarked]

section Marks

variable (hwidth : 0 < g.width) (hsize : (g.tiles.size : Int) = g.width * g.height)

include hwidth hsize

/-- A mark is about the point of its place. -/
theorem getElem_flood {i : Nat} (hi : i < (g.flood start).size) :
    (g.flood start)[i] = true ↔ g.pointAt i ∈ region g.floor start := by
  have hin : g.inBounds (g.pointAt i) = true := by
    rw [size_flood] at hi
    exact inBounds_pointAt hwidth (by omega)
  rw [← mem_flood hin, isMarked, index_pointAt, Array.getD_eq_getD_getElem?,
    Array.getElem?_eq_getElem hi, Option.getD_some]

theorem flood_joined (h : Joined g.floor start other) : g.flood other = g.flood start := by
  have hregion : region g.floor other = region g.floor start := by
    by_cases hstart : start ∈ g.floor
    · exact region_eq_of_mem ⟨hstart, h⟩
    · -- No step starts off the floor, so the two points are one.
      rw [region_of_notMem hstart, region_of_notMem fun hother => hstart (h.symm.mem hother)]
  refine Array.ext (by rw [size_flood, size_flood]) fun i hi hi' => ?_
  rw [Bool.eq_iff_iff, getElem_flood hwidth hsize hi, getElem_flood hwidth hsize hi', hregion]

theorem flood_disjoint (h : ¬ Joined g.floor start other) {i : Nat}
    (hi : i < (g.flood start).size) (hi' : i < (g.flood other).size) :
    ¬ ((g.flood start)[i] = true ∧ (g.flood other)[i] = true) := by
  rintro ⟨hmarked, hmarked'⟩
  rw [getElem_flood hwidth hsize] at hmarked hmarked'
  exact h (hmarked.2.trans hmarked'.2.symm)

/-- A flood marks the floor that is joined to its start, and nothing else; off the floor it marks
nothing. So two starts of one region give the same marks, and those of two regions have no mark in
common. Sizes and indices are exact integers, which stand for machine words as long as the number of
tiles has room in 32 bits. -/
theorem flood_exact (start : Point) :
    ((g.flood start).size : Int) = g.width * g.height ∧
      (∀ i (hi : i < (g.flood start).size), g.index (g.pointAt i) = i ∧
        g.inBounds (g.pointAt i) = true ∧
        ((g.flood start)[i] = true ↔
          g.pointAt i ∈ g.floor ∧ Joined g.floor start (g.pointAt i))) ∧
      (start ∉ g.floor → ∀ i (hi : i < (g.flood start).size), (g.flood start)[i] = false) ∧
      (∀ other, Joined g.floor start other → g.flood other = g.flood start) ∧
      ∀ other, ¬ Joined g.floor start other →
        ∀ i (hi : i < (g.flood start).size) (hi' : i < (g.flood other).size),
          ¬ ((g.flood start)[i] = true ∧ (g.flood other)[i] = true) := by
  refine ⟨by rw [size_flood, hsize], fun i hi => ⟨index_pointAt g i, ?_, ?_⟩,
    fun hstart i hi => ?_, fun other hjoined => flood_joined hwidth hsize hjoined,
    fun other happart i hi hi' => flood_disjoint hwidth hsize happart hi hi'⟩
  · rw [size_flood] at hi
    exact inBounds_pointAt hwidth (by omega)
  · rw [getElem_flood hwidth hsize hi, mem_region_iff]
  · rw [← Bool.not_eq_true, getElem_flood hwidth hsize hi, region_of_notMem hstart]
    exact Set.notMem_empty _

end Marks

/-- The end of one row and the start of the next have neighbouring marks, but are not joined. -/
theorem flood_exact_twoRows :
    let g : Grid := ⟨3, 2, #[.wall, .wall, .floor, .floor, .wall, .wall]⟩
    0 < g.width ∧ (g.tiles.size : Int) = g.width * g.height ∧
      g.flood ⟨2, 0⟩ = #[false, false, true, false, false, false] ∧
      g.flood ⟨0, 1⟩ = #[false, false, false, true, false, false] ∧
      ¬ Joined g.floor ⟨2, 0⟩ ⟨0, 1⟩ := by
  intro g
  have hsize : (g.tiles.size : Int) = g.width * g.height := by decide
  have hflood : g.flood ⟨2, 0⟩ = #[false, false, true, false, false, false] := by decide +kernel
  have hflood' : g.flood ⟨0, 1⟩ = #[false, false, false, true, false, false] := by decide +kernel
  refine ⟨by decide, hsize, hflood, hflood', fun hjoined => ?_⟩
  obtain ⟨-, -, -, hsame, -⟩ := flood_exact (g := g) (by decide) hsize ⟨2, 0⟩
  have heq := hsame ⟨0, 1⟩ hjoined
  rw [hflood, hflood'] at heq
  cases heq

end Dungeon.Grid
