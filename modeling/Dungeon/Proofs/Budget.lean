import Dungeon.Proofs.Strung

/-!
# Larger budgets

Scattered rooms are placed attempt by attempt, and no attempt looks at how many rooms are wanted or
how many attempts are left. So two layouts that differ in nothing else make the same attempts, and
the one with more to spend goes on where the other one stops.

Results:
1. `Scatter.attempts_startOf`: later attempts only add to what earlier ones placed.
2. `Scatter.exists_attempts`: the attempts of the smaller budget are the first ones of the larger.
3. `Layout.scatter_appends`: a larger budget adds rooms, corridors and floor, and takes none away.
-/

namespace Dungeon

/-- More rooms and corridors cover more. -/
theorem Grid.footprint_mono {rooms rooms' : List Room} {corridors corridors' : List Corridor}
    (hrooms : rooms ⊆ rooms') (hcorridors : corridors ⊆ corridors') :
    Grid.footprint rooms corridors ⊆ Grid.footprint rooms' corridors' := by
  rintro x (⟨r, hr, hx⟩ | ⟨c, hc, hx⟩)
  · exact .inl ⟨r, hrooms hr, hx⟩
  · exact .inr ⟨c, hcorridors hc, hx⟩

theorem Map.floor_ofPlan_mono {m : Map} (hfull : m.grid.Full) {rooms rooms' : List Room}
    {corridors corridors' : List Corridor} (hrooms : rooms ⊆ rooms')
    (hcorridors : corridors ⊆ corridors') :
    (m.ofPlan rooms corridors).grid.floor ⊆ (m.ofPlan rooms' corridors').grid.floor := by
  obtain ⟨_, _, _, hfloor⟩ := Grid.carvePlan_spec hfull.filled rooms corridors
  obtain ⟨_, _, _, hfloor'⟩ := Grid.carvePlan_spec hfull.filled rooms' corridors'
  rw [Map.ofPlan, Map.ofPlan, hfloor, hfloor']
  exact Set.union_subset_union_right _ fun x hx =>
    ⟨hx.1, Grid.footprint_mono hrooms hcorridors hx.2⟩

namespace Scatter

variable {p q : ScatterParams} {width height : Int}

/-! ## Attempts that add -/

/-- The first placement is the start of the second one. -/
structure Placement.StartOf (s t : Placement) : Prop where
  rooms : s.rooms <+: t.rooms
  corridors : s.corridors <+: t.corridors

theorem Placement.StartOf.trans {s t u : Placement} (h : s.StartOf t) (h' : t.StartOf u) :
    s.StartOf u := ⟨h.rooms.trans h'.rooms, h.corridors.trans h'.corridors⟩

theorem Placement.place_startOf (s : Placement) (candidate : Rect) :
    (s.place candidate).Ensures s.StartOf := by
  unfold place
  cases s.rooms.getLast? with
  | none => exact .pure ⟨List.prefix_append _ _, List.prefix_rfl⟩
  | some previous =>
    refine (Draw.Ensures.trivial _).bind fun c _ => .pure ?_
    exact ⟨List.prefix_append _ _, List.prefix_append _ _⟩

theorem Placement.tryOnce_startOf (s : Placement) :
    (s.tryOnce p width height).Ensures s.StartOf := by
  unfold tryOnce
  refine (Draw.Ensures.trivial _).bind fun candidate _ => ?_
  dsimp only
  split
  · exact .pure ⟨List.prefix_rfl, List.prefix_rfl⟩
  · exact (place_startOf _ candidate).mono fun t ht => ⟨ht.rooms, ht.corridors⟩

theorem attempts_startOf (p : ScatterParams) (width height : Int) (s : Source) {j k : Nat}
    (h : j ≤ k) :
    (attempts p width height s j).1.StartOf (attempts p width height s k).1 := by
  induction k, h using Nat.le_induction with
  | base => exact ⟨List.prefix_rfl, List.prefix_rfl⟩
  | succ k _ ih =>
    rw [attempts_succ]
    exact ih.trans ((attempts p width height s k).1.tryOnce_startOf _)

/-! ## Two budgets -/

/-- What an attempt depends on. -/
structure SameCandidates (p q : ScatterParams) : Prop where
  minRoom : p.minRoom = q.minRoom
  maxRoom : p.maxRoom = q.maxRoom
  padding : p.padding = q.padding

theorem SameCandidates.attempt_eq (h : SameCandidates p q) :
    attempt p width height = attempt q width height := by
  unfold attempt Placement.tryOnce drawCandidate ScatterParams.greatestSide
  rw [h.minRoom, h.maxRoom, h.padding]

/-- With a smaller target and fewer attempts in all, the draws stop no later. -/
theorem exists_attempts (width height : Int) (h : SameCandidates p q)
    (htarget : p.targetRooms ≤ q.targetRooms) (hbudget : budget p ≤ budget q) (s : Source) :
    ∃ j k, j ≤ k ∧
      (draw p width height (budget p) {}).run s = attempts q width height s j ∧
      (draw q width height (budget q) {}).run s = attempts q width height s k := by
  obtain ⟨j, hj, hrun, _, hbefore⟩ := draw_run p width height (budget p) ({}, s)
  obtain ⟨k, _, hrun', hends, _⟩ := draw_run q width height (budget q) ({}, s)
  rw [h.attempt_eq] at hrun hbefore
  refine ⟨j, k, ?_, hrun, hrun'⟩
  by_contra hlater
  rcases hends with hreached | hspent
  · -- The larger target is reached, but the smaller one is still missed at this point.
    have hmissing := hbefore k (Nat.lt_of_not_le hlater)
    omega
  · omega

end Scatter

/-- Of two layouts that agree on the sides of rooms and on the padding, the one with the larger
target and the larger number of attempts in all has the rooms and the corridors of the other one and
then maybe more, and its floor holds that of the other one. -/
theorem Layout.scatter_appends (p q : ScatterParams) (hminRoom : p.minRoom = q.minRoom)
    (hmaxRoom : p.maxRoom = q.maxRoom) (hpadding : p.padding = q.padding)
    (htarget : p.targetRooms ≤ q.targetRooms)
    (hattempts : p.targetRooms * p.attemptsPerRoom ≤ q.targetRooms * q.attemptsPerRoom) (m : Map)
    (hfull : m.grid.Full) (report report' : Report) (s : Source) :
    let less := ((Layout.scatter p m report).run s).1.map
    let more := ((Layout.scatter q m report').run s).1.map
    less.rooms <+: more.rooms ∧ less.corridors <+: more.corridors ∧
      less.grid.floor ⊆ more.grid.floor := by
  have hbudget : Scatter.budget p ≤ Scatter.budget q := Int.toNat_le_toNat hattempts
  obtain ⟨j, k, hjk, hless, hmore⟩ := Scatter.exists_attempts m.grid.width m.grid.height
    ⟨hminRoom, hmaxRoom, hpadding⟩ htarget hbudget s
  have hstart := Scatter.attempts_startOf q m.grid.width m.grid.height s hjk
  rw [← hless, ← hmore] at hstart
  intro less more
  exact ⟨hstart.rooms, hstart.corridors,
    Map.floor_ofPlan_mono hfull hstart.rooms.subset hstart.corridors.subset⟩

/-- Two rooms, wanted from at most six attempts, and the three that a larger budget adds. -/
theorem Layout.scatter_appends_five :
    let less := ((Layout.scatter { targetRooms := 2, attemptsPerRoom := 3 } (.ofSize 24 16) {}).run
      (.ofSeed 1)).1.map
    let more := ((Layout.scatter { targetRooms := 5, attemptsPerRoom := 4 } (.ofSize 24 16) {}).run
      (.ofSeed 1)).1.map
    less.rooms.length = 2 ∧ more.rooms.length = 5 ∧ less.rooms <+: more.rooms ∧
      less.corridors <+: more.corridors :=
  have happends := Layout.scatter_appends { targetRooms := 2, attemptsPerRoom := 3 }
    { targetRooms := 5, attemptsPerRoom := 4 } rfl rfl rfl (by decide) (by decide) (.ofSize 24 16)
    (by unfold Grid.Full; decide +kernel) {} {} (.ofSeed 1)
  ⟨by decide +kernel, by decide +kernel, happends.1, happends.2.1⟩

end Dungeon
