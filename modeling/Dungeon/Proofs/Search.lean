import Dungeon.Region
import Dungeon.Proofs.Grid
import Dungeon.Proofs.Region

/-!
# Searching regions

A search marks the region of the point it starts from: `Exploring` says what holds while its
frontier shrinks and grows, one step keeps it, and there are enough steps since no point is visited
twice. The survey runs one search for every region and remembers the first one of the largest.

Results:
1. `Grid.exploreFrom_spec`: a search from an unmarked point visits just its region, each point once.
2. `Grid.mem_flood`: a flood marks the floor joined to its start.
3. `Grid.keepLargest_area`, `Grid.floor_keepLargest`: the number given is the area of a largest
   region, and what is kept is the one led by the first point of all that lie in a largest one.
-/

namespace Dungeon.Grid

variable {g : Grid} {start p q : Point} {marks : Marks} {frontier visited : List Point}

/-! ## Marks -/

theorem size_mark (g : Grid) (marks : Marks) (points : List Point) :
    (g.mark marks points).size = marks.size := by
  unfold mark
  induction points generalizing marks with
  | nil => rfl
  | cons p rest ih => rw [List.foldl_cons, ih, Array.size_setIfInBounds]

theorem isMarked_unmarked (g : Grid) (p : Point) : g.isMarked g.unmarked p = false := by
  simp only [isMarked, unmarked, Array.getD_eq_getD_getElem?, Array.getElem?_replicate]
  split <;> rfl

theorem isMarked_mark (hsize : marks.size = g.tiles.size) {points : List Point}
    (hpoints : ∀ p ∈ points, p ∈ g.floor) (hq : g.inBounds q = true) :
    g.isMarked (g.mark marks points) q = true ↔ g.isMarked marks q = true ∨ q ∈ points := by
  induction points generalizing marks with
  | nil => simp [mark]
  | cons p rest ih =>
    have hp : p ∈ g.floor := hpoints p List.mem_cons_self
    have hcons : g.mark marks (p :: rest) = g.mark (marks.setIfInBounds (g.index p) true) rest := rfl
    rw [hcons, ih (by rw [Array.size_setIfInBounds, hsize])
      fun r hr => hpoints r (List.mem_cons_of_mem p hr), List.mem_cons, ← or_assoc]
    refine or_congr_left ?_
    simp only [isMarked, Array.getD_eq_getD_getElem?, Array.getElem?_setIfInBounds]
    by_cases hpq : q = p
    · subst hpq
      have hlt : g.index q < marks.size := by
        rw [hsize]
        exact index_lt_size hp
      simp [hlt]
    · have hne : g.index p ≠ g.index q := fun h =>
        hpq (index_inj hq (inBounds_of_mem_floor hp) h.symm)
      simp [hne, hpq]

theorem mem_fresh :
    q ∈ g.fresh marks p ↔ p.manhattan q = 1 ∧ q ∈ g.floor ∧ g.isMarked marks q = false := by
  rw [fresh, List.mem_filter, Point.mem_neighbours4, Bool.and_eq_true, Bool.not_eq_true',
    mem_floor]

/-! ## One search -/

/-- What holds during a search. The points of `before` were marked when it began. -/
structure Exploring (g : Grid) (start : Point) (before : Set Point) (frontier : List Point)
    (marks : Marks) (visited : List Point) : Prop where
  size : marks.size = g.tiles.size
  marked : ∀ q, g.inBounds q = true →
    (g.isMarked marks q = true ↔ q ∈ before ∨ q ∈ frontier ++ visited)
  found : ∀ q ∈ frontier ++ visited, q ∈ region g.floor start ∧ q ∉ before
  closed : ∀ q ∈ visited, ∀ r, StepIn g.floor q r → g.isMarked marks r = true
  nodup : (frontier ++ visited).Nodup
  started : start ∈ frontier ++ visited

section Exploring

variable {before : Set Point}

theorem Exploring.visit (h : Exploring g start before (p :: frontier) marks visited) :
    Exploring g start before (g.fresh marks p ++ frontier) (g.mark marks (g.fresh marks p))
      (p :: visited) := by
  have hnew : ∀ q ∈ g.fresh marks p, q ∈ g.floor := fun q hq => (mem_fresh.mp hq).2.1
  have hmark : ∀ q, g.inBounds q = true → (g.isMarked (g.mark marks (g.fresh marks p)) q = true ↔
      g.isMarked marks q = true ∨ q ∈ g.fresh marks p) :=
    fun q hq => isMarked_mark h.size hnew hq
  have hperm : (g.fresh marks p ++ frontier ++ p :: visited).Perm
      (g.fresh marks p ++ (p :: frontier ++ visited)) := by
    rw [List.append_assoc]
    exact (List.perm_middle).append_left _
  have hmem : ∀ q, q ∈ g.fresh marks p ++ frontier ++ p :: visited ↔
      q ∈ g.fresh marks p ∨ q ∈ p :: frontier ++ visited := fun q => by
    rw [hperm.mem_iff, List.mem_append]
  have hp := h.found p (by simp)
  -- The six parts of `Exploring` in turn. What is new is the fresh points: they are floor, one step
  -- from a point of the region, and were not marked before.
  refine ⟨?_, ?_, ?_, ?_, ?_, ?_⟩
  · rw [size_mark, h.size]
  · intro q hq
    rw [hmark q hq, h.marked q hq, hmem, or_assoc, or_comm (a := q ∈ p :: frontier ++ visited)]
  · intro q hq
    cases (hmem q).mp hq with
    | inl hq =>
      obtain ⟨hstep, hfloor, hunmarked⟩ := mem_fresh.mp hq
      refine ⟨⟨hp.1.1, .tail hp.1.2 ⟨region_subset _ _ hp.1, hfloor, hstep⟩⟩, fun hb => ?_⟩
      rw [(h.marked q (inBounds_of_mem_floor hfloor)).mpr (.inl hb)] at hunmarked
      cases hunmarked
    | inr hq => exact h.found q hq
  · intro q hq r hr
    rw [hmark r (inBounds_of_mem_floor hr.2.1)]
    rcases List.mem_cons.mp hq with rfl | hq
    · by_cases hm : g.isMarked marks r = true
      · exact .inl hm
      · exact .inr (mem_fresh.mpr ⟨hr.2.2, hr.2.1, by simpa using hm⟩)
    · exact .inl (h.closed q hq r hr)
  · rw [hperm.nodup_iff, List.nodup_append]
    refine ⟨p.nodup_neighbours4.filter _, h.nodup, fun a ha b hb hab => ?_⟩
    subst hab
    obtain ⟨_, hfloor, hunmarked⟩ := mem_fresh.mp ha
    rw [(h.marked a (inBounds_of_mem_floor hfloor)).mpr (.inr hb)] at hunmarked
    cases hunmarked
  · exact (hmem start).mpr (.inr h.started)

theorem length_le_size {points : List Point} (hnodup : points.Nodup)
    (hfloor : ∀ p ∈ points, p ∈ g.floor) : points.length ≤ g.tiles.size := by
  have hindex : (points.map g.index).Nodup := by
    refine (List.nodup_map_iff_inj_on hnodup).mpr fun p hp q hq h => ?_
    exact index_inj (inBounds_of_mem_floor (hfloor p hp)) (inBounds_of_mem_floor (hfloor q hq)) h
  have hsub : points.map g.index ⊆ List.range g.tiles.size := by
    intro i hi
    obtain ⟨p, hp, rfl⟩ := List.mem_map.mp hi
    exact List.mem_range.mpr (index_lt_size (hfloor p hp))
  have hle := (List.subperm_of_subset hindex hsub).length_le
  rwa [List.length_map, List.length_range] at hle

/-- With a step for every tile that is not yet visited, and one more, the frontier runs empty. -/
theorem Exploring.run (steps : Nat) (h : Exploring g start before frontier marks visited)
    (hsteps : g.tiles.size < visited.length + steps) :
    Exploring g start before [] (g.explore steps frontier marks visited).1
      (g.explore steps frontier marks visited).2 := by
  induction steps generalizing frontier marks visited with
  | zero =>
    -- The steps cannot have run out: more points would be visited than there are tiles.
    have hfloor : ∀ q ∈ visited, q ∈ g.floor := fun q hq =>
      region_subset _ _ (h.found q (List.mem_append_right _ hq)).1
    have hle := length_le_size (List.nodup_append.mp h.nodup).2.1 hfloor
    omega
  | succ steps ih =>
    cases frontier with
    | nil => exact h
    | cons p frontier =>
      refine ih h.visit ?_
      rw [List.length_cons]
      omega

/-- When the frontier is empty, the visited points are the whole region. -/
theorem Exploring.mem_visited (h : Exploring g start before [] marks visited)
    (hclosed : ∀ q r, StepIn g.floor q r → q ∈ before → r ∈ before) :
    q ∈ visited ↔ q ∈ region g.floor start := by
  constructor
  · exact fun hq => (h.found q hq).1
  · rintro ⟨_, hjoined⟩
    induction hjoined with
    | refl => exact h.started
    | @tail a b _ hstep ih =>
      -- The next point is marked, and had it been so from the beginning, so would this one.
      cases (h.marked b (inBounds_of_mem_floor hstep.2.1)).mp (h.closed a ih b hstep) with
      | inl hb => exact absurd (hclosed b a hstep.symm hb) (h.found a ih).2
      | inr hb => exact hb

end Exploring

/-- The marked floor points are joined to marked ones only. -/
def ClosedMarks (g : Grid) (marks : Marks) : Prop :=
  ∀ q r, StepIn g.floor q r → g.isMarked marks q = true → g.isMarked marks r = true

theorem exploreFrom_spec (hp : p ∈ g.floor) (hsize : marks.size = g.tiles.size)
    (hmarks : g.ClosedMarks marks) (hnew : g.isMarked marks p = false) :
    (g.exploreFrom p marks).1.size = g.tiles.size ∧
      (∀ q, g.inBounds q = true → (g.isMarked (g.exploreFrom p marks).1 q = true ↔
        g.isMarked marks q = true ∨ q ∈ region g.floor p)) ∧
      (∀ q, q ∈ (g.exploreFrom p marks).2 ↔ q ∈ region g.floor p) ∧
      (g.exploreFrom p marks).2.Nodup := by
  have hmark : ∀ q, g.inBounds q = true → (g.isMarked (g.mark marks [p]) q = true ↔
      g.isMarked marks q = true ∨ q ∈ [p]) :=
    fun q hq => isMarked_mark hsize (by simpa using hp) hq
  have hbegin : Exploring g p {q | g.isMarked marks q = true} [p] (g.mark marks [p]) [] := by
    refine ⟨by rw [size_mark, hsize], ?_, ?_, ?_, by simp, by simp⟩
    · intro q hq
      rw [hmark q hq, List.append_nil, Set.mem_ofPred_eq]
    · intro q hq
      rw [List.append_nil, List.mem_singleton] at hq
      subst hq
      exact ⟨mem_region_self hp, by simp [hnew]⟩
    · intro q hq
      cases hq
  have hend := hbegin.run (g.tiles.size + 1) (by simp)
  have hvisited : ∀ q, q ∈ (g.exploreFrom p marks).2 ↔ q ∈ region g.floor p :=
    fun q => hend.mem_visited hmarks
  refine ⟨hend.size, fun q hq => ?_, hvisited, hend.nodup⟩
  rw [← hvisited]
  exact hend.marked q hq

/-! ## Floods -/

theorem mem_flood (hq : g.inBounds q = true) :
    g.isMarked (g.flood start) q = true ↔ q ∈ region g.floor start := by
  unfold flood
  split
  · next hstart =>
    have hclosed : g.ClosedMarks g.unmarked := fun a b _ ha => by
      rw [isMarked_unmarked] at ha
      cases ha
    obtain ⟨_, hmarked, _⟩ := exploreFrom_spec hstart (by simp [unmarked]) hclosed
      (isMarked_unmarked g start)
    rw [hmarked q hq, isMarked_unmarked]
    simp
  · next hstart =>
    rw [isMarked_unmarked, region_of_notMem (s := g.floor) hstart]
    simp

/-! ## The survey of all regions -/

/-- The list is the region of a point that leads the largest regions met so far. -/
structure Leading (g : Grid) (seen : List Point) (s : Survey) (p : Point) : Prop where
  met : p ∈ seen
  floor : p ∈ g.floor
  best : ∀ q, q ∈ s.best ↔ q ∈ region g.floor p
  size : s.size = (region g.floor p).ncard
  largest : ∀ q ∈ seen, (region g.floor q).ncard ≤ s.size
  first : ∀ q ∈ seen, q ∈ g.floor → (region g.floor q).ncard = s.size → p = q ∨ p.Before q

/-- What holds of a survey after it has seen these points. -/
structure Surveyed (g : Grid) (seen : List Point) (s : Survey) : Prop where
  size : s.marks.size = g.tiles.size
  marked : ∀ q ∈ g.floor, g.isMarked s.marks q = true ↔ ∃ p ∈ seen, q ∈ region g.floor p
  best : (s.size = 0 ∧ ∀ p ∈ seen, p ∉ g.floor) ∨ ∃ p, g.Leading seen s p

section Survey

variable {seen : List Point} {s : Survey}

theorem Surveyed.closedMarks (h : g.Surveyed seen s) : g.ClosedMarks s.marks := by
  intro q r hstep hq
  obtain ⟨p, hp, hjoined⟩ := (h.marked q hstep.1).mp hq
  exact (h.marked r hstep.2.1).mpr ⟨p, hp, hjoined.1, .tail hjoined.2 hstep⟩

/-- Every region met so far is at most as large as the best one. -/
theorem Surveyed.largest (h : g.Surveyed seen s) (hq : q ∈ seen) :
    (region g.floor q).ncard ≤ s.size := by
  rcases h.best with ⟨_, hnone⟩ | ⟨p, hp⟩
  · rw [region_of_notMem (hnone q hq), Set.ncard_empty]
    exact Nat.zero_le _
  · exact hp.largest q hq

/-- A later point whose region is not larger does not take the lead. -/
theorem Leading.snoc {b : Point} {marks : Marks} (h : g.Leading seen s b) (hbefore : b.Before p)
    (hle : (region g.floor p).ncard ≤ s.size) :
    g.Leading (seen ++ [p]) { s with marks } b where
  met := List.mem_append_left _ h.met
  floor := h.floor
  best := h.best
  size := h.size
  largest := List.forall_mem_append.mpr ⟨h.largest, List.forall_mem_singleton.mpr hle⟩
  first := List.forall_mem_append.mpr
    ⟨h.first, List.forall_mem_singleton.mpr fun _ _ => .inr hbefore⟩

/-- Another point of a region that was met before, or a point that is not floor, changes nothing. -/
theorem Surveyed.skip (h : g.Surveyed seen s) (hbefore : ∀ q ∈ seen, q.Before p)
    (hp : p ∉ g.floor ∨ ∃ q ∈ seen, p ∈ region g.floor q) : g.Surveyed (seen ++ [p]) s := by
  have hregion : region g.floor p = ∅ ∨ ∃ q ∈ seen, region g.floor p = region g.floor q := by
    rcases hp with hp | ⟨q, hq, hmem⟩
    · exact .inl (region_of_notMem hp)
    · exact .inr ⟨q, hq, region_eq_of_mem hmem⟩
  refine ⟨h.size, fun q hq => ?_, ?_⟩
  · rw [h.marked q hq]
    constructor
    · rintro ⟨r, hr, hmem⟩
      exact ⟨r, List.mem_append_left _ hr, hmem⟩
    · rintro ⟨r, hr, hmem⟩
      cases List.mem_append.mp hr with
      | inl hr => exact ⟨r, hr, hmem⟩
      | inr hr =>
        -- The region of the new point is that of a point seen before, so it adds no marks.
        rw [List.mem_singleton] at hr
        subst hr
        rcases hregion with hempty | ⟨r', hr', heq⟩
        · rw [hempty] at hmem
          exact absurd hmem (Set.notMem_empty q)
        · exact ⟨r', hr', heq ▸ hmem⟩
  · rcases h.best with ⟨hzero, hnone⟩ | ⟨b, hb⟩
    · -- Without any floor so far there is no region that the point could lie in.
      have hout : p ∉ g.floor := by
        rcases hp with hp | ⟨r, hr, hmem⟩
        · exact hp
        · exact absurd hmem.1 (hnone r hr)
      exact .inl ⟨hzero, List.forall_mem_append.mpr ⟨hnone, List.forall_mem_singleton.mpr hout⟩⟩
    · have hle : (region g.floor p).ncard ≤ s.size := by
        rcases hregion with hempty | ⟨r, hr, heq⟩
        · rw [hempty, Set.ncard_empty]
          exact Nat.zero_le _
        · rw [heq]
          exact hb.largest r hr
      exact .inr ⟨b, hb.snoc (hbefore b hb.met) hle⟩

/-- A new region becomes the best one just if it is larger. -/
theorem Surveyed.meet (h : g.Surveyed seen s) (hbefore : ∀ q ∈ seen, q.Before p)
    (hp : p ∈ g.floor) (hnew : g.isMarked s.marks p = false) :
    g.Surveyed (seen ++ [p]) (s.visit g p) := by
  obtain ⟨hsize, hmarked, hmem, hnodup⟩ := exploreFrom_spec hp h.size h.closedMarks hnew
  have hlength := ncard_eq_length hnodup hmem
  have hall : ∀ q ∈ g.floor, g.isMarked (g.exploreFrom p s.marks).1 q = true ↔
      ∃ r ∈ seen ++ [p], q ∈ region g.floor r := by
    intro q hq
    rw [hmarked q (inBounds_of_mem_floor hq), h.marked q hq]
    simp [or_and_right, exists_or]
  have hvisit : s.visit g p = if s.size < (g.exploreFrom p s.marks).2.length then
      ⟨(g.exploreFrom p s.marks).1, (g.exploreFrom p s.marks).2,
        (g.exploreFrom p s.marks).2.length⟩
      else ⟨(g.exploreFrom p s.marks).1, s.best, s.size⟩ := by
    rw [mem_floor] at hp
    simp [Survey.visit, hp, hnew]
  rw [hvisit]
  split
  · next hlarger =>
    refine ⟨hsize, hall, .inr ⟨p, by simp, hp, hmem, hlength.symm, fun q hq => ?_,
      fun q hq _ heq => ?_⟩⟩
    · cases List.mem_append.mp hq with
      | inl hq => exact (h.largest hq).trans hlarger.le
      | inr hq =>
        rw [List.mem_singleton] at hq
        subst hq
        exact hlength.le
    · cases List.mem_append.mp hq with
      | inl hq => exact absurd heq ((h.largest hq).trans_lt hlarger).ne
      | inr hq =>
        rw [List.mem_singleton] at hq
        exact .inl hq.symm
  · next hnot =>
    -- The new region is not empty, so the best one is not empty either and keeps its lead.
    have hpos : 0 < (g.exploreFrom p s.marks).2.length :=
      List.length_pos_of_mem ((hmem p).mpr (mem_region_self hp))
    refine ⟨hsize, hall, ?_⟩
    rcases h.best with ⟨hzero, _⟩ | ⟨b, hb⟩
    · omega
    · have hle : (region g.floor p).ncard ≤ s.size := hlength.le.trans (Nat.not_lt.mp hnot)
      exact .inr ⟨b, hb.snoc (hbefore b hb.met) hle⟩

theorem Surveyed.visit (h : g.Surveyed seen s) (hbefore : ∀ q ∈ seen, q.Before p) :
    g.Surveyed (seen ++ [p]) (s.visit g p) := by
  by_cases hp : p ∈ g.floor
  · by_cases hm : g.isMarked s.marks p = true
    · have hskip : s.visit g p = s := by
        simp [Survey.visit, hm]
      rw [hskip]
      exact h.skip hbefore (.inr ((h.marked p hp).mp hm))
    · exact h.meet hbefore hp (by simpa using hm)
  · have hskip : s.visit g p = s := by
      rw [mem_floor] at hp
      simp [Survey.visit, hp]
    rw [hskip]
    exact h.skip hbefore (.inl hp)

theorem Surveyed.run {rest : List Point} (h : g.Surveyed seen s)
    (hsorted : (seen ++ rest).Pairwise Point.Before) :
    g.Surveyed (seen ++ rest) (rest.foldl (Survey.visit g) s) := by
  induction rest generalizing seen s with
  | nil => rwa [List.append_nil]
  | cons p rest ih =>
    have hbefore : ∀ q ∈ seen, q.Before p := fun q hq =>
      (List.pairwise_append.mp hsorted).2.2 q hq p List.mem_cons_self
    rw [List.append_cons] at hsorted
    rw [List.append_cons]
    exact ih (h.visit hbefore) hsorted

end Survey

theorem survey_surveyed (g : Grid) : g.Surveyed g.points g.survey := by
  have hbegin : g.Surveyed [] ⟨g.unmarked, [], 0⟩ := by
    refine ⟨by simp [unmarked], fun q _ => ?_, .inl ⟨rfl, fun p hp => by cases hp⟩⟩
    rw [isMarked_unmarked]
    simp
  exact hbegin.run (Rect.points_pairwise g.frame)

/-! ## The largest region -/

theorem survey_of_floor_empty (h : g.floor = ∅) : g.survey.size = 0 := by
  rcases g.survey_surveyed.best with ⟨hzero, _⟩ | ⟨p, hp⟩
  · exact hzero
  · exact absurd hp.floor (by rw [h]; exact Set.notMem_empty p)

theorem exists_leading (h : g.floor.Nonempty) :
    ∃ p, LeadsLargest g.floor p ∧ g.survey.size = (region g.floor p).ncard ∧
      ∀ q, q ∈ g.survey.best ↔ q ∈ region g.floor p := by
  obtain ⟨a, ha⟩ := h
  have hpoint : ∀ q ∈ g.floor, q ∈ g.points := fun q hq => mem_points.mpr (inBounds_of_mem_floor hq)
  rcases g.survey_surveyed.best with ⟨_, hnone⟩ | ⟨p, hp⟩
  · exact absurd ha (hnone a (hpoint a ha))
  · refine ⟨p, ⟨hp.floor, fun q => ?_, fun q hq heq => ?_⟩, hp.size, hp.best⟩
    · by_cases hq : q ∈ g.floor
      · exact hp.size ▸ hp.largest q (hpoint q hq)
      · rw [region_of_notMem hq, Set.ncard_empty]
        exact Nat.zero_le _
    · exact hp.first q (hpoint q hq) hq (heq.trans hp.size.symm)

theorem finite_floor (g : Grid) : g.floor.Finite := by
  refine g.points.toFinset.finite_toSet.subset fun p hp => ?_
  rw [List.coe_toFinset]
  exact mem_points.mpr (inBounds_of_mem_floor hp)

theorem ncard_region_pos (hp : p ∈ g.floor) : 0 < (region g.floor p).ncard :=
  (Set.ncard_pos (g.finite_floor.subset (region_subset _ _))).mpr ⟨p, mem_region_self hp⟩

theorem survey_size (g : Grid) : g.survey.size = largestArea g.floor := by
  cases g.floor.eq_empty_or_nonempty with
  | inl h => rw [survey_of_floor_empty h, h, largestArea_empty]
  | inr h =>
    obtain ⟨p, hp, hsize, _⟩ := exists_leading h
    rw [hsize, largestArea_eq hp.largest]

theorem floor_withoutFloor (g : Grid) : g.withoutFloor.floor = ∅ := by
  rw [Set.eq_empty_iff_forall_notMem]
  intro p hp
  obtain ⟨t, _, ht⟩ := Array.mem_map.mp (Array.mem_of_getElem? (tile_of_mem_floor hp))
  cases t <;> cases ht

theorem size_tiles_withoutFloor (g : Grid) : g.withoutFloor.tiles.size = g.tiles.size :=
  Array.size_map

theorem keepLargest_eq (g : Grid) :
    g.keepLargest = if g.survey.size = 0 then (g, 0)
      else (g.withoutFloor.carve g.survey.best, g.survey.size) := rfl

theorem keepLargest_area (g : Grid) : g.keepLargest.2 = largestArea g.floor := by
  rw [← survey_size, keepLargest_eq]
  split
  · next hzero => exact hzero.symm
  · rfl

theorem keepLargest_size (g : Grid) :
    g.keepLargest.1.width = g.width ∧ g.keepLargest.1.height = g.height ∧
      g.keepLargest.1.tiles.size = g.tiles.size := by
  rw [keepLargest_eq]
  split
  · exact ⟨rfl, rfl, rfl⟩
  · refine ⟨carve_width _ _, carve_height _ _, ?_⟩
    exact (size_tiles_carve _ _).trans (size_tiles_withoutFloor g)

theorem LeadsLargest.unique {s : Set Point} (hp : LeadsLargest s p) (hq : LeadsLargest s q) :
    p = q := by
  have heq : (region s p).ncard = (region s q).ncard := le_antisymm (hq.largest p) (hp.largest q)
  cases hp.first q hq.mem heq.symm with
  | inl h => exact h
  | inr h =>
    cases hq.first p hp.mem heq with
    | inl h' => exact h'.symm
    | inr h' => exact absurd h' h.asymm

/-- What is kept is the region led by the first point of all that lie in a largest one. -/
theorem floor_keepLargest (hg : g.Full) (h : LeadsLargest g.floor p) :
    g.keepLargest.1.floor = region g.floor p := by
  obtain ⟨b, hb, hsize, hbest⟩ := exists_leading ⟨p, h.mem⟩
  have hbp : b = p := LeadsLargest.unique hb h
  subst hbp
  have hpos : g.survey.size ≠ 0 := by
    rw [hsize]
    exact (ncard_region_pos h.mem).ne'
  have hfull : g.withoutFloor.Full := hg.congr rfl rfl (size_tiles_withoutFloor g)
  rw [keepLargest_eq, if_neg hpos, floor_carve hfull, floor_withoutFloor, Set.empty_union]
  ext q
  rw [Set.mem_ofPred_eq, hbest]
  constructor
  · exact fun hq => hq.2
  · intro hq
    have hin := inBounds_of_mem_floor (region_subset _ _ hq)
    exact ⟨by rw [← hin]; exact inBounds_congr rfl rfl q, hq⟩

end Dungeon.Grid
