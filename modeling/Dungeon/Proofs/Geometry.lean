import Dungeon.Geometry
import Mathlib

/-!
# Points, ranges and rectangles

What the lists of points of a rectangle hold, in which order, and how rectangles lie to each other.

Results:
1. `Rect.mem_points`, `Rect.points_pairwise`: the points of a rectangle are those it contains, row
   by row.
2. `Point.mem_neighbours4`, `Point.mem_neighbours8`: neighbours are the points at distance one.
3. `Rect.meets_comm`, `Rect.meets_eq_false_of_gap`: meeting is symmetric, and rectangles with a gap
   of the padding between their columns or rows do not meet.
4. `Rect.Apart.of_meets`: rectangles that do not meet have no point in common.
-/

namespace Dungeon

/-! ## Ranges -/

theorem mem_span {lo n x : Int} : x ∈ span lo n ↔ lo ≤ x ∧ x < lo + n := by
  unfold span
  rw [List.mem_map]
  constructor
  · rintro ⟨k, hk, rfl⟩
    rw [List.mem_range] at hk
    omega
  · rintro ⟨hlo, hhi⟩
    exact ⟨(x - lo).toNat, by rw [List.mem_range]; omega, by omega⟩

theorem span_pairwise (lo n : Int) : (span lo n).Pairwise (· < ·) := by
  unfold span
  rw [List.pairwise_map]
  exact List.pairwise_lt_range.imp fun h => by omega

/-! ## Points -/

namespace Point

/-- The first point comes before the second, row by row. -/
def Before (p q : Point) : Prop := p.y < q.y ∨ p.y = q.y ∧ p.x < q.x

theorem Before.ne {p q : Point} (h : p.Before q) : p ≠ q := by
  rintro rfl
  unfold Before at h
  omega

theorem Before.asymm {p q : Point} (h : p.Before q) : ¬ q.Before p := by
  unfold Before at *
  omega

theorem before_or_eq_or_before (p q : Point) : p.Before q ∨ p = q ∨ q.Before p := by
  rcases p with ⟨px, py⟩
  rcases q with ⟨qx, qy⟩
  simp only [Before, Point.mk.injEq]
  omega

theorem manhattan_comm (p q : Point) : p.manhattan q = q.manhattan p := by
  unfold manhattan
  omega

theorem mem_neighbours4 {p q : Point} : q ∈ p.neighbours4 ↔ p.manhattan q = 1 := by
  rcases p with ⟨px, py⟩
  rcases q with ⟨qx, qy⟩
  simp only [neighbours4, manhattan, List.mem_cons, List.not_mem_nil, or_false, Point.mk.injEq]
  omega

theorem mem_neighbours8 {p q : Point} : q ∈ p.neighbours8 ↔ p.chebyshev q = 1 := by
  rcases p with ⟨px, py⟩
  rcases q with ⟨qx, qy⟩
  simp only [neighbours8, chebyshev, List.mem_cons, List.not_mem_nil, or_false, Point.mk.injEq]
  omega

theorem nodup_neighbours4 (p : Point) : p.neighbours4.Nodup := by
  simp [neighbours4]
  omega

theorem nodup_neighbours8 (p : Point) : p.neighbours8.Nodup := by
  simp [neighbours8]
  omega

end Point

/-- A set of points has as many points as a list of them, each once. -/
theorem ncard_eq_length {s : Set Point} {points : List Point} (hnodup : points.Nodup)
    (hmem : ∀ q, q ∈ points ↔ q ∈ s) : s.ncard = points.length := by
  have hset : s = (points.toFinset : Set Point) := by
    ext q
    rw [List.coe_toFinset, Set.mem_ofPred_eq, hmem]
  rw [hset, Set.ncard_coe_finset, List.toFinset_card_of_nodup hnodup]

/-! ## Rectangles -/

namespace Rect

theorem contains_iff {r : Rect} {p : Point} :
    r.contains p = true ↔ r.x ≤ p.x ∧ p.x < r.x + r.w ∧ r.y ≤ p.y ∧ p.y < r.y + r.h := by
  rw [contains, decide_eq_true_eq]
  rfl

theorem mem_points {r : Rect} {p : Point} : p ∈ r.points ↔ r.contains p = true := by
  rcases p with ⟨px, py⟩
  rw [contains_iff]
  simp only [points, List.mem_flatMap, List.mem_map, mem_span, Point.mk.injEq]
  constructor
  · rintro ⟨y, hy, x, hx, rfl, rfl⟩
    omega
  · rintro ⟨hx, hx', hy, hy'⟩
    exact ⟨py, ⟨hy, hy'⟩, px, ⟨hx, hx'⟩, rfl, rfl⟩

theorem points_pairwise (r : Rect) : r.points.Pairwise Point.Before := by
  unfold points
  rw [List.pairwise_flatMap]
  constructor
  · intro y _
    rw [List.pairwise_map]
    exact (span_pairwise r.x r.w).imp fun h => .inr ⟨rfl, h⟩
  · -- Whatever the columns, all points of a row come before all points of a lower one.
    refine (span_pairwise r.y r.h).imp fun {y y'} h p hp q hq => ?_
    obtain ⟨x, _, rfl⟩ := List.mem_map.mp hp
    obtain ⟨x', _, rfl⟩ := List.mem_map.mp hq
    exact .inl h

theorem length_points (r : Rect) : r.points.length = r.h.toNat * r.w.toNat := by
  simp [points, span, List.length_flatMap, Function.comp_def]

theorem contains_center {r : Rect} (hw : 0 < r.w) (hh : 0 < r.h) : r.contains r.center = true := by
  have hx : r.w.tdiv 2 = r.w / 2 := Int.tdiv_eq_ediv_of_nonneg (by omega)
  have hy : r.h.tdiv 2 = r.h / 2 := Int.tdiv_eq_ediv_of_nonneg (by omega)
  rw [contains_iff]
  simp only [center, hx, hy]
  omega

theorem contains_inside {r frame : Rect} {p : Point} :
    (r.inside frame).contains p = true ↔ r.contains p = true ∧ frame.contains p = true := by
  simp only [contains_iff, inside, right, bottom]
  omega

theorem meets_comm (r s : Rect) (padding : Int) : r.meets s padding = s.meets r padding := by
  unfold meets
  rw [decide_eq_decide]
  omega

theorem meets_eq_false_of_gap {r s : Rect} {padding : Int}
    (h : r.right + padding ≤ s.x ∨ s.right + padding ≤ r.x ∨
      r.bottom + padding ≤ s.y ∨ s.bottom + padding ≤ r.y) :
    r.meets s padding = false := by
  unfold meets
  rw [decide_eq_false_iff_not]
  omega

/-- Rectangles with sides do not meet if the first one, grown by the padding, has no point in common
with the second. -/
theorem meets_eq_false_of_apart {r s : Rect} {padding : Int} (hpadding : 0 ≤ padding)
    (hrw : 0 < r.w) (hrh : 0 < r.h) (hsw : 0 < s.w) (hsh : 0 < s.h)
    (h : ∀ p, (r.grow padding).contains p = true → s.contains p = false) :
    r.meets s padding = false := by
  cases hmeets : r.meets s padding with
  | false => rfl
  | true =>
    rw [meets, decide_eq_true_eq, right, right, bottom, bottom] at hmeets
    -- The later of the two corners lies in both rectangles.
    have hboth := h ⟨max (r.x - padding) s.x, max (r.y - padding) s.y⟩ (by
      rw [contains_iff, grow]
      simp only
      omega)
    rw [← Bool.not_eq_true, contains_iff] at hboth
    simp only at hboth
    omega

theorem meets_mono {r s : Rect} {padding padding' : Int} (hle : padding ≤ padding')
    (h : r.meets s padding' = false) : r.meets s padding = false := by
  unfold meets at *
  rw [decide_eq_false_iff_not] at *
  omega

/-- The rectangles have no point in common. -/
def Apart (r s : Rect) : Prop := ∀ p, r.contains p = true → s.contains p = false

theorem Apart.of_meets {r s : Rect} {padding : Int} (hpadding : 0 ≤ padding)
    (h : r.meets s padding = false) : r.Apart s := by
  intro p hr
  cases hs : s.contains p with
  | false => rfl
  | true =>
    rw [contains_iff] at hr hs
    unfold meets at h
    rw [decide_eq_false_iff_not] at h
    simp only [right, bottom] at h
    omega

theorem Apart.center_ne {r s : Rect} (h : r.Apart s) (hr : r.contains r.center = true)
    (hs : s.contains s.center = true) : r.center ≠ s.center := by
  intro heq
  have hfalse := h r.center hr
  rw [heq, hs] at hfalse
  cases hfalse

end Rect

end Dungeon
