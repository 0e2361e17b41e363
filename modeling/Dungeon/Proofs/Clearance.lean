import Dungeon.Clearance
import Dungeon.Proofs.Grid

/-!
# Clearance

The clearance of a point in a set of points is the number of steps, along axes or diagonals, that
lead out of the set. It drops by at most one with each step, and some step makes it drop. Waves that
start from everything outside the floor of a grid therefore meet its points in the order of their
clearance: before wave `d` the points met are those with a clearance below `d`.

Results:
1. `clearance_le_iff`, `clearance_le_add`, `exists_step_out`: clearance in a set of points.
2. `Grid.Spreading.next`: what a wave keeps.
3. `Grid.clearances_run`: the table of clearances holds the clearance of every point in the floor.
4. `Grid.clearances_exact`: it is the distance to the nearest point that is not floor or to the
   outside, whichever is less.
-/

namespace Dungeon

/-! ## Clearance in a set -/

namespace Point

theorem chebyshev_comm (p q : Point) : p.chebyshev q = q.chebyshev p := by
  unfold chebyshev
  omega

theorem chebyshev_triangle (p q r : Point) : p.chebyshev r ≤ p.chebyshev q + q.chebyshev r := by
  have hx : (p.x - r.x).natAbs ≤ (p.x - q.x).natAbs + (q.x - r.x).natAbs := by omega
  have hy : (p.y - r.y).natAbs ≤ (p.y - q.y).natAbs + (q.y - r.y).natAbs := by omega
  exact max_le (hx.trans (Nat.add_le_add (le_max_left _ _) (le_max_left _ _)))
    (hy.trans (Nat.add_le_add (le_max_right _ _) (le_max_right _ _)))

theorem chebyshev_eq_zero {p q : Point} : p.chebyshev q = 0 ↔ p = q := by
  rcases p with ⟨px, py⟩
  rcases q with ⟨qx, qy⟩
  simp only [chebyshev, mk.injEq]
  omega

/-- The point next to `p` on the way to another point is one step nearer to that. -/
theorem exists_nearer {p r : Point} {k : Nat} (h : p.chebyshev r = k + 1) :
    ∃ q, p.chebyshev q = 1 ∧ q.chebyshev r = k := by
  refine ⟨⟨clamp (p.x - 1) (p.x + 1) r.x, clamp (p.y - 1) (p.y + 1) r.y⟩, ?_⟩
  simp only [chebyshev, clamp] at *
  constructor <;> split_ifs <;> omega

end Point

/-- The number of steps, along axes or diagonals, from a point to the nearest one outside the set. -/
noncomputable def clearance (s : Set Point) (p : Point) : Nat :=
  sInf {k | ∃ q, q ∉ s ∧ p.chebyshev q = k}

section Clearance

variable {s : Set Point} {p q : Point} {k : Nat}

theorem clearance_le (hq : q ∉ s) : clearance s p ≤ p.chebyshev q := Nat.sInf_le ⟨q, hq, rfl⟩

theorem exists_clearance (hs : sᶜ.Nonempty) (p : Point) :
    ∃ q, q ∉ s ∧ p.chebyshev q = clearance s p := by
  obtain ⟨q, hq⟩ := hs
  exact Nat.sInf_mem (s := {k | ∃ q, q ∉ s ∧ p.chebyshev q = k}) ⟨_, q, hq, rfl⟩

theorem clearance_le_iff (hs : sᶜ.Nonempty) :
    clearance s p ≤ k ↔ ∃ q, q ∉ s ∧ p.chebyshev q ≤ k := by
  constructor
  · intro h
    obtain ⟨q, hq, hdist⟩ := exists_clearance hs p
    exact ⟨q, hq, hdist.trans_le h⟩
  · rintro ⟨q, hq, hdist⟩
    exact (clearance_le hq).trans hdist

/-- Fewer steps than the clearance do not lead out of the set. -/
theorem mem_of_chebyshev_lt (h : p.chebyshev q < clearance s p) : q ∈ s := by
  by_contra hq
  exact absurd (clearance_le hq) (Nat.not_le.mpr h)

theorem clearance_eq_zero (hs : sᶜ.Nonempty) : clearance s p = 0 ↔ p ∉ s := by
  rw [← Nat.le_zero, clearance_le_iff hs]
  simp only [Nat.le_zero, Point.chebyshev_eq_zero, exists_eq_right']

theorem clearance_pos (hs : sᶜ.Nonempty) : 0 < clearance s p ↔ p ∈ s := by
  rw [Nat.pos_iff_ne_zero, Ne, clearance_eq_zero hs, not_not]

/-- Clearance drops by no more than the steps made. -/
theorem clearance_le_add (hs : sᶜ.Nonempty) (p q : Point) :
    clearance s p ≤ p.chebyshev q + clearance s q := by
  obtain ⟨r, hr, hdist⟩ := exists_clearance hs q
  calc clearance s p
      ≤ p.chebyshev r := clearance_le hr
    _ ≤ p.chebyshev q + q.chebyshev r := p.chebyshev_triangle q r
    _ = p.chebyshev q + clearance s q := by rw [hdist]

/-- Some step makes the clearance drop. -/
theorem exists_step_out (hs : sᶜ.Nonempty) (h : clearance s p = k + 1) :
    ∃ q, p.chebyshev q = 1 ∧ clearance s q = k := by
  obtain ⟨r, hr, hdist⟩ := exists_clearance hs p
  obtain ⟨q, hstep, hnear⟩ := Point.exists_nearer (hdist.trans h)
  refine ⟨q, hstep, le_antisymm ((clearance_le hr).trans hnear.le) ?_⟩
  have hdrop := clearance_le_add hs p q
  omega

end Clearance

namespace Grid

variable {g : Grid} {p q : Point} {d : Nat} {met : Distances} {w : Wave}

theorem notMem_floor_of_out (h : g.inBounds p = false) : p ∉ g.floor := fun hp => by
  rw [inBounds_of_mem_floor hp] at h
  cases h

theorem compl_floor_nonempty (g : Grid) : g.floorᶜ.Nonempty :=
  ⟨⟨-1, 0⟩, notMem_floor_of_out rfl⟩

/-! ## Waves -/

/-- The steps at which a point was met, if it was. -/
def metAt (g : Grid) (met : Distances) (p : Point) : Option Nat := met.getD (g.index p) none

theorem metAt_set (hg : g.Full) (hsize : met.size = g.tiles.size) (hp : g.inBounds p = true)
    (hq : g.inBounds q = true) (steps : Option Nat) :
    g.metAt (met.setIfInBounds (g.index p) steps) q = if q = p then steps else g.metAt met q := by
  have hlt : g.index p < met.size := by
    rw [hsize]
    exact Nat.lt_of_lt_of_le (index_lt hp) hg
  simp only [metAt, Array.getD_eq_getD_getElem?, Array.getElem?_setIfInBounds]
  by_cases hqp : q = p
  · subst hqp
    simp [hlt]
  · have hne : g.index p ≠ g.index q := fun h => hqp (index_inj hq hp h.symm)
    simp [hne, hqp]

theorem meetPoint_fresh (hp : g.inBounds p = true) (hmet : g.metAt w.met p = none) :
    w.meetPoint g d p = ⟨p :: w.front, w.met.setIfInBounds (g.index p) (some d)⟩ := by
  rw [metAt] at hmet
  simp [Wave.meetPoint, hp, hmet]

theorem meetPoint_skip (h : ¬ (g.inBounds p = true ∧ g.metAt w.met p = none)) :
    w.meetPoint g d p = w := by
  rw [metAt, ← Option.isNone_iff_eq_none, ← Bool.and_eq_true] at h
  simp only [Wave.meetPoint, if_neg h]

/-- Of a list of points a wave meets those inside the grid that were not met before. -/
theorem foldl_meetPoint (hg : g.Full) (points : List Point) (hsize : w.met.size = g.tiles.size) :
    let next := points.foldl (Wave.meetPoint g d) w
    next.met.size = g.tiles.size ∧
      (∀ q, g.inBounds q = true → g.metAt next.met q =
        if g.metAt w.met q = none ∧ q ∈ points then some d else g.metAt w.met q) ∧
      ∀ q, q ∈ next.front ↔
        q ∈ w.front ∨ (g.inBounds q = true ∧ g.metAt w.met q = none) ∧ q ∈ points := by
  induction points generalizing w with
  | nil => simpa using hsize
  | cons p rest ih =>
    rw [List.foldl_cons]
    by_cases hfresh : g.inBounds p = true ∧ g.metAt w.met p = none
    · rw [meetPoint_fresh hfresh.1 hfresh.2]
      have hset := fun q hq => metAt_set (q := q) hg hsize hfresh.1 hq (some d)
      obtain ⟨hsize', hmet', hfront'⟩ := ih
        (w := ⟨p :: w.front, w.met.setIfInBounds (g.index p) (some d)⟩)
        (by rw [Array.size_setIfInBounds, hsize])
      refine ⟨hsize', fun q hq => ?_, fun q => ?_⟩
      · rw [hmet' q hq, hset q hq]
        by_cases hqp : q = p
        · subst hqp
          simp [hfresh.2]
        · simp [hqp]
      · rw [hfront']
        by_cases hqp : q = p
        · subst hqp
          simp [hfresh]
        · have hset' : g.inBounds q = true →
              g.metAt (w.met.setIfInBounds (g.index p) (some d)) q = g.metAt w.met q :=
            fun hq => (hset q hq).trans (if_neg hqp)
          simp only [List.mem_cons, hqp, false_or]
          grind
    · rw [meetPoint_skip hfresh]
      obtain ⟨hsize', hmet', hfront'⟩ := ih hsize
      refine ⟨hsize', fun q hq => ?_, fun q => ?_⟩
      · rw [hmet' q hq]
        grind
      · rw [hfront']
        grind

theorem next_eq (g : Grid) (d : Nat) (w : Wave) :
    w.next g d =
      (w.front.flatMap Point.neighbours8).foldl (Wave.meetPoint g d) ⟨[], w.met⟩ := by
  rw [List.foldl_flatMap]
  rfl

/-- What holds before wave `d` starts: the points with less clearance have been met, and the next
ones lie beside the front. -/
structure Spreading (g : Grid) (d : Nat) (w : Wave) : Prop where
  size : w.met.size = g.tiles.size
  met : ∀ p, g.inBounds p = true → g.metAt w.met p =
    if clearance g.floor p < d then some (clearance g.floor p) else none
  near : ∀ q ∈ w.front, clearance g.floor q < d
  beside : ∀ p, clearance g.floor p = d → ∃ q ∈ w.front, q.chebyshev p = 1

theorem inBounds_of_clearance_pos (h : 0 < clearance g.floor p) : g.inBounds p = true :=
  inBounds_of_mem_floor ((clearance_pos g.compl_floor_nonempty).mp h)

theorem Spreading.next (hg : g.Full) (hd : 1 ≤ d) (h : g.Spreading d w) :
    g.Spreading (d + 1) (w.next g d) := by
  have hs := g.compl_floor_nonempty
  obtain ⟨hsize, hmet, hfront⟩ := foldl_meetPoint (d := d) (w := ⟨[], w.met⟩) hg
    (w.front.flatMap Point.neighbours8) h.size
  rw [← next_eq] at hsize hmet hfront
  have hbeside : ∀ q, q ∈ w.front.flatMap Point.neighbours8 ↔ ∃ t ∈ w.front, t.chebyshev q = 1 :=
    fun q => by simp only [List.mem_flatMap, Point.mem_neighbours8]
  -- One step from the front leads to a clearance of at most `d`.
  have hat_most : ∀ q ∈ w.front.flatMap Point.neighbours8, clearance g.floor q ≤ d := by
    intro q hq
    obtain ⟨t, ht, hstep⟩ := (hbeside q).mp hq
    have hdrop := clearance_le_add hs q t
    have hnear := h.near t ht
    rw [Point.chebyshev_comm, hstep] at hdrop
    omega
  have hunmet : ∀ q, g.inBounds q = true →
      (g.metAt w.met q = none ↔ d ≤ clearance g.floor q) := by
    intro q hq
    rw [h.met q hq]
    split <;> simp <;> omega
  refine ⟨hsize, fun q hq => ?_, fun q hq => ?_, fun q hq => ?_⟩
  · rw [hmet q hq]
    rcases Nat.lt_trichotomy (clearance g.floor q) d with hlt | heq | hgt
    · rw [if_neg fun hnew => by have := (hunmet q hq).mp hnew.1; omega, h.met q hq, if_pos hlt,
        if_pos (by omega)]
    · rw [if_pos ⟨(hunmet q hq).mpr heq.ge, (hbeside q).mpr (h.beside q heq)⟩, heq,
        if_pos (Nat.lt_succ_self d)]
    · rw [if_neg fun hnew => by have := hat_most q hnew.2; omega,
        (hunmet q hq).mpr hgt.le, if_neg (by omega)]
  · rcases (hfront q).mp hq with hold | ⟨_, hq⟩
    · cases hold
    · exact Nat.lt_succ_of_le (hat_most q hq)
  · -- The next point out has clearance `d`, so it is floor and this wave has met it.
    obtain ⟨t, hstep, ht⟩ := exists_step_out hs hq
    have hin : g.inBounds t = true := inBounds_of_clearance_pos (by omega)
    refine ⟨t, (hfront t).mpr (.inr ⟨⟨hin, (hunmet t hin).mpr ht.ge⟩, ?_⟩), ?_⟩
    · exact (hbeside t).mpr (h.beside t ht)
    · rw [Point.chebyshev_comm, hstep]

/-- Clearance takes every value below its own on the way out, so without points of clearance `d`
there are none beyond. -/
theorem clearance_lt_of_none (h : ∀ p, clearance g.floor p ≠ d) (p : Point) :
    clearance g.floor p < d := by
  by_contra hge
  obtain ⟨k, hk⟩ := Nat.exists_eq_add_of_le (Nat.not_lt.mp hge)
  clear hge
  induction k generalizing p with
  | zero => exact h p hk
  | succ k ih =>
    obtain ⟨q, _, hq⟩ := exists_step_out g.compl_floor_nonempty hk
    exact ih q hq

theorem Spreading.run (hg : g.Full) (steps : Nat) (hd : 1 ≤ d) (h : g.Spreading d w)
    (hsteps : ∀ p, g.inBounds p = true → clearance g.floor p < d + steps) :
    (g.spread steps d w).size = g.tiles.size ∧
      ∀ p, g.inBounds p = true → g.metAt (g.spread steps d w) p = some (clearance g.floor p) := by
  induction steps generalizing d w with
  | zero => exact ⟨h.size, fun p hp => (h.met p hp).trans (if_pos (hsteps p hp))⟩
  | succ steps ih =>
    rw [spread]
    split
    · next hempty =>
      rw [List.isEmpty_iff] at hempty
      refine ⟨h.size, fun p hp => (h.met p hp).trans (if_pos ?_)⟩
      refine clearance_lt_of_none (fun q hq => ?_) p
      obtain ⟨t, ht, _⟩ := h.beside q hq
      rw [hempty] at ht
      cases ht
    · refine ih (by omega) (h.next hg hd) fun p hp => ?_
      have hp' := hsteps p hp
      omega

/-! ## The first wave -/

theorem mem_ring : q ∈ g.ring ↔
    (-1 ≤ q.x ∧ q.x ≤ g.width) ∧ (q.y = -1 ∨ q.y = g.height) ∨
      (0 ≤ q.y ∧ q.y < g.height) ∧ (q.x = -1 ∨ q.x = g.width) := by
  rcases q with ⟨x, y⟩
  simp only [ring, List.mem_append, List.mem_map, mem_span, Point.mk.injEq, existsAndEq,
    true_and, and_true]
  omega

theorem out_of_mem_ring (h : q ∈ g.ring) : g.inBounds q = false := by
  rw [mem_ring] at h
  rw [← Bool.not_eq_true, inBounds_iff]
  omega

theorem mem_ring_of_beside (hp : g.inBounds p = true) (hq : ¬ g.inBounds q = true)
    (hstep : p.chebyshev q = 1) : q ∈ g.ring := by
  rw [inBounds_iff] at hp hq
  rw [Point.chebyshev] at hstep
  rw [mem_ring]
  omega

/-- The points inside a grid that are not floor. -/
def closed (g : Grid) : List Point := g.points.filter fun p => !g.isFloor p

theorem mem_closed : p ∈ g.closed ↔ g.inBounds p = true ∧ p ∉ g.floor := by
  rw [closed, List.mem_filter, mem_points, Bool.not_eq_true', mem_floor, Bool.not_eq_true]

theorem foldl_setZero (hg : g.Full) (met : Distances) (points : List Point)
    (hin : ∀ p ∈ points, g.inBounds p = true)
    (hsize : met.size = g.tiles.size) :
    let met' := points.foldl (fun met p => met.setIfInBounds (g.index p) (some 0)) met
    met'.size = g.tiles.size ∧ ∀ q, g.inBounds q = true →
      g.metAt met' q = if q ∈ points then some 0 else g.metAt met q := by
  induction points generalizing met with
  | nil => simpa using hsize
  | cons p rest ih =>
    obtain ⟨hsize', hmet'⟩ := ih (met.setIfInBounds (g.index p) (some 0))
      (fun q hq => hin q (List.mem_cons_of_mem p hq)) (by rw [Array.size_setIfInBounds, hsize])
    refine ⟨hsize', fun q hq => ?_⟩
    rw [List.foldl_cons, hmet' q hq, metAt_set hg hsize (hin p List.mem_cons_self) hq]
    grind

theorem firstWave_spreading (hg : g.Full) : g.Spreading 1 g.firstWave := by
  have hs := g.compl_floor_nonempty
  have hwave : g.firstWave = ⟨g.closed ++ g.ring,
      g.closed.foldl (fun met p => met.setIfInBounds (g.index p) (some 0))
        (Array.replicate g.tiles.size none)⟩ := rfl
  obtain ⟨hsize, hmet⟩ := foldl_setZero hg (Array.replicate g.tiles.size none) g.closed
    (fun p hp => (mem_closed.mp hp).1) Array.size_replicate
  have hnone : ∀ q, g.metAt (Array.replicate g.tiles.size none) q = none := fun q => by
    simp only [metAt, Array.getD_eq_getD_getElem?, Array.getElem?_replicate]
    split <;> rfl
  rw [hwave]
  refine ⟨hsize, fun q hq => ?_, fun q hq => ?_, fun q hq => ?_⟩
  · rw [hmet q hq, hnone]
    by_cases hfloor : q ∈ g.floor
    · have hpos := (clearance_pos hs).mpr hfloor
      rw [if_neg fun h => (mem_closed.mp h).2 hfloor, if_neg (by omega)]
    · rw [if_pos (mem_closed.mpr ⟨hq, hfloor⟩), (clearance_eq_zero hs).mpr hfloor,
        if_pos Nat.zero_lt_one]
  · rw [Nat.lt_one_iff, clearance_eq_zero hs]
    rcases List.mem_append.mp hq with hq | hq
    · exact (mem_closed.mp hq).2
    · exact notMem_floor_of_out (out_of_mem_ring hq)
  · obtain ⟨t, hstep, ht⟩ := exists_step_out hs hq
    have hout := (clearance_eq_zero hs).mp ht
    refine ⟨t, List.mem_append.mpr ?_, by rw [Point.chebyshev_comm, hstep]⟩
    by_cases hin : g.inBounds t = true
    · exact .inl (mem_closed.mpr ⟨hin, hout⟩)
    · exact .inr (mem_ring_of_beside (inBounds_of_clearance_pos (by omega)) hin hstep)

/-! ## The table of clearances -/

/-- Every point inside is met before the steps run out, since going left leads out in time. -/
theorem clearance_le_size (hg : g.Full) (hp : g.inBounds p = true) :
    clearance g.floor p ≤ g.tiles.size := by
  obtain ⟨hx, hy, hw, hh⟩ := inBounds_iff.mp hp
  have hout : (⟨-1, p.y⟩ : Point) ∉ g.floor := notMem_floor_of_out rfl
  calc clearance g.floor p
      ≤ p.chebyshev ⟨-1, p.y⟩ := clearance_le hout
    _ ≤ g.width.toNat := by
        simp only [Point.chebyshev]
        omega
    _ ≤ g.width.toNat * g.height.toNat := Nat.le_mul_of_pos_right _ (by omega)
    _ ≤ g.tiles.size := hg

theorem clearances_run (hg : g.Full) : g.clearances.size = g.tiles.size ∧
    ∀ p, g.inBounds p = true → g.metAt g.clearances p = some (clearance g.floor p) := by
  refine (firstWave_spreading hg).run hg (g.tiles.size + 1) le_rfl fun p hp => ?_
  have hle := clearance_le_size hg hp
  omega

theorem clearanceAt_clearances (hg : g.Full) (hp : g.inBounds p = true) :
    g.clearanceAt g.clearances p = clearance g.floor p := by
  have hmet := (clearances_run hg).2 p hp
  rw [metAt] at hmet
  rw [clearanceAt, hmet, Option.getD_some]

/-- The number of steps from a point inside the grid to the nearest point outside. -/
def toOutside (g : Grid) (p : Point) : Int :=
  min (min (p.x + 1) (p.y + 1)) (min (g.width - p.x) (g.height - p.y))

theorem toOutside_le (hp : g.inBounds p = true) (hq : ¬ g.inBounds q = true) :
    g.toOutside p ≤ p.chebyshev q := by
  rw [inBounds_iff] at hp hq
  simp only [toOutside, Point.chebyshev]
  have hside : q.x < 0 ∨ q.y < 0 ∨ g.width ≤ q.x ∨ g.height ≤ q.y := by omega
  rcases hside with h | h | h | h <;> omega

theorem exists_toOutside (hp : g.inBounds p = true) :
    ∃ q, g.inBounds q = false ∧ (p.chebyshev q : Int) = g.toOutside p := by
  rw [inBounds_iff] at hp
  have hside : g.toOutside p = p.x + 1 ∨ g.toOutside p = p.y + 1 ∨
      g.toOutside p = g.width - p.x ∨ g.toOutside p = g.height - p.y := by
    unfold toOutside
    omega
  simp only [← Bool.not_eq_true, inBounds_iff, Point.chebyshev]
  rcases hside with h | h | h | h
  · exact ⟨⟨-1, p.y⟩, by simp only; omega, by simp only; omega⟩
  · exact ⟨⟨p.x, -1⟩, by simp only; omega, by simp only; omega⟩
  · exact ⟨⟨g.width, p.y⟩, by simp only; omega, by simp only; omega⟩
  · exact ⟨⟨p.x, g.height⟩, by simp only; omega, by simp only; omega⟩

/-- Every point of a grid has an entry in the table of clearances. It is zero off the floor; on the
floor it is the distance to the nearest point that is not floor or to the outside, whichever is
less. -/
theorem clearances_exact (g : Grid) (hg : g.Full) :
    g.clearances.size = g.tiles.size ∧ ∀ p, g.inBounds p = true →
      ∃ c, g.clearances[g.index p]? = some (some c) ∧
        (g.isFloor p = false → c = 0) ∧
        (g.isFloor p = true → IsLeast
          ({k | ∃ q, g.inBounds q = true ∧ g.isFloor q = false ∧ p.chebyshev q = k} ∪
            {k | (k : Int) = g.toOutside p}) c) := by
  have hs := g.compl_floor_nonempty
  obtain ⟨hsize, hmet⟩ := clearances_run hg
  refine ⟨hsize, fun p hp => ⟨clearance g.floor p, ?_, fun hout => ?_, fun _ => ⟨?_, ?_⟩⟩⟩
  · have hlt : g.index p < g.clearances.size := by
      rw [hsize]
      exact Nat.lt_of_lt_of_le (index_lt hp) hg
    have hentry := hmet p hp
    rw [metAt, Array.getD_eq_getD_getElem?, Array.getElem?_eq_getElem hlt, Option.getD_some]
      at hentry
    rw [Array.getElem?_eq_getElem hlt, hentry]
  · rw [clearance_eq_zero hs, mem_floor, hout]
    exact Bool.false_ne_true
  · obtain ⟨q, hq, hdist⟩ := exists_clearance hs p
    by_cases hin : g.inBounds q = true
    · exact .inl ⟨q, hin, by rwa [mem_floor, Bool.not_eq_true] at hq, hdist⟩
    · -- The nearest point lies outside, and no point outside is nearer.
      obtain ⟨r, hr, hdist'⟩ := exists_toOutside hp
      have hle := toOutside_le hp hin
      have hge := clearance_le (p := p) (notMem_floor_of_out hr)
      refine .inr ?_
      rw [Set.mem_ofPred_eq]
      omega
  · rintro k (⟨q, _, hq, rfl⟩ | hk)
    · exact clearance_le (by rw [mem_floor, hq]; exact Bool.false_ne_true)
    · obtain ⟨r, hr, hdist⟩ := exists_toOutside hp
      have hle := clearance_le (p := p) (notMem_floor_of_out hr)
      rw [Set.mem_ofPred_eq] at hk
      omega

/-- Nothing but floor: in the middle of nine points two steps lead outside. -/
theorem clearances_exact_open :
    let g := Grid.ofFloor 3 3 fun _ => true
    g.Full ∧ g.clearances[4]? = some (some 2) ∧ IsLeast
      ({k | ∃ q, g.inBounds q = true ∧ g.isFloor q = false ∧ Point.chebyshev ⟨1, 1⟩ q = k} ∪
        {k | (k : Int) = g.toOutside ⟨1, 1⟩}) 2 := by
  have hfull := full_ofFloor 3 3 fun _ => true
  have hentry : (Grid.ofFloor 3 3 fun _ => true).clearances[4]? = some (some 2) := by
    decide +kernel
  obtain ⟨c, hc, _, hleast⟩ := (clearances_exact _ hfull).2 ⟨1, 1⟩ (by decide)
  have hcentry : (some (some 2) : Option (Option Nat)) = some (some c) := hentry.symm.trans hc
  cases hcentry
  exact ⟨hfull, hentry, hleast (by decide)⟩

end Grid
end Dungeon
