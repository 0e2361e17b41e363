import Dungeon.Proofs.Generate

/-!
# Permissive caves

A lower threshold, a smaller least area and more retries ask less of a cave. From the same noise a
lower threshold makes every step of smoothing leave more floor, and more floor has a largest region
that is no smaller. So an attempt that suffices still does when less is asked, and the search ends
no later.

Results:
1. `Cavern.smoothed_mono`, `Cavern.iterate_smoothed_mono`: smoothing keeps the order of sets, and a
   lower threshold makes larger ones.
2. `Cavern.cave_mono`, `Cavern.Suffices.mono`: an attempt that suffices does so with parameters that
   ask for less.
3. `Layout.cavern_relaxed`: so does the layout, after no more attempts.
4. `Handover.generate_permissive`: the same for grids and for generations.
-/

namespace Dungeon

/-- On a map of a size the first parameters ask for no more than the second, and they differ in
nothing else. -/
structure CavernParams.Relaxes (p q : CavernParams) (width height : Int) : Prop where
  same : p = { q with threshold := p.threshold, maxRetries := p.maxRetries, minArea := p.minArea }
  threshold : p.threshold ≤ q.threshold
  retries : q.maxRetries ≤ p.maxRetries
  area : p.leastArea width height ≤ q.leastArea width height

namespace Cavern

/-! ## Smoothing -/

section Smoothing

variable {threshold threshold' : Int} {s t : Set Point}

/-- A point that has enough of the smaller set around it has enough of the larger one. -/
theorem smoothed_mono (hthreshold : threshold' ≤ threshold) (hst : s ⊆ t) (width height : Int) :
    smoothed threshold width height s ⊆ smoothed threshold' width height t := by
  rintro q ⟨hin, henough⟩
  have haround : {r ∈ s | q.chebyshev r = 1} ⊆ {r ∈ t | q.chebyshev r = 1} :=
    fun r hr => ⟨hst hr.1, hr.2⟩
  -- Even where the larger set is not finite, only eight points lie around one.
  have hfinite : {r ∈ t | q.chebyshev r = 1}.Finite :=
    q.neighbours8.toFinset.finite_toSet.subset fun r hr => by
      rw [List.coe_toFinset]
      exact Point.mem_neighbours8.mpr hr.2
  have hle := Set.ncard_le_ncard haround hfinite
  refine ⟨hin, ?_⟩
  omega

theorem iterate_smoothed_mono (hthreshold : threshold' ≤ threshold) (hst : s ⊆ t)
    (width height : Int) (times : Nat) :
    (smoothed threshold width height)^[times] s ⊆ (smoothed threshold' width height)^[times] t := by
  induction times generalizing s t with
  | zero => exact hst
  | succ times ih =>
    rw [Function.iterate_succ_apply, Function.iterate_succ_apply]
    exact ih (smoothed_mono hthreshold hst width height)

end Smoothing

section Grid

variable {g g' : Grid} {threshold threshold' : Int}

theorem floor_smooth_mono (hwidth : g.width = g'.width) (hheight : g.height = g'.height)
    (hfloor : g.floor ⊆ g'.floor) (hthreshold : threshold' ≤ threshold) (times : Nat) :
    (smooth threshold times g).floor ⊆ (smooth threshold' times g').floor := by
  rw [floor_smooth, floor_smooth, hwidth, hheight]
  exact iterate_smoothed_mono hthreshold hfloor _ _ times

theorem keepLargest_mono (hfloor : g.floor ⊆ g'.floor) : g.keepLargest.2 ≤ g'.keepLargest.2 := by
  rw [Grid.keepLargest_area, Grid.keepLargest_area]
  exact largestArea_mono hfloor g'.finite_floor

end Grid

/-! ## Attempts -/

section Attempt

variable {p q : CavernParams} {width height : Int}

/-- The noise is the same, and so is the number of steps. -/
theorem cave_mono (h : p.Relaxes q width height) (s : Source) :
    cave q width height s ⊆ cave p width height s := by
  have hfill : p.fill = q.fill := by rw [h.same]
  have hsmoothings : p.smoothings = q.smoothings := by rw [h.same]
  unfold cave
  rw [hfill, hsmoothings]
  exact iterate_smoothed_mono h.threshold Set.Subset.rfl width height _

theorem finite_cave (p : CavernParams) (width height : Int) (s : Source) :
    (cave p width height s).Finite := by
  rw [← (grow_depicts p width height s).floor]
  exact Grid.finite_floor _

theorem Suffices.mono {leastArea leastArea' : Int} {s t : Set Point} (h : Suffices leastArea s)
    (hleast : leastArea' ≤ leastArea) (hst : s ⊆ t) (ht : t.Finite) : Suffices leastArea' t := by
  have hle := largestArea_mono hst ht
  obtain ⟨hpos, hlarge⟩ := h
  exact ⟨by omega, by omega⟩

end Attempt

end Cavern

/-! ## The layout -/

open Cavern in
/-- The attempt that the stricter layout takes suffices for the other one too, which takes it unless
an earlier one suffices as well. -/
theorem Layout.cavern_relaxed {p q : CavernParams} {m n : Map} {report report' : Report}
    {s : Source} (h : p.Relaxes q m.grid.width m.grid.height) (hretries : 0 ≤ q.maxRetries)
    (hwidth : n.grid.width = m.grid.width) (hheight : n.grid.height = m.grid.height)
    (hfault : ((Layout.cavern q m report).run s).1.fault = none) :
    ((Layout.cavern p n report').run s).1.fault = none ∧
      ((Layout.cavern p n report').run s).1.report.attempts
        ≤ ((Layout.cavern q m report).run s).1.report.attempts := by
  have hsuffices : ∀ k, Suffices (q.leastArea m.grid.width m.grid.height)
      (cave q m.grid.width m.grid.height (sourceOf s k)) →
      Suffices (p.leastArea n.grid.width n.grid.height)
        (cave p n.grid.width n.grid.height (sourceOf s k)) := by
    rw [hwidth, hheight]
    exact fun k hk => hk.mono h.area (cave_mono h _) (finite_cave _ _ _ _)
  have hmore := h.retries
  rcases Layout.cavern_cases m report s hretries with
    ⟨k, hk, htaken, _, _, hreport, _⟩ | ⟨_, hfailed, _⟩
  · have htaken' := hsuffices k htaken
    rcases Layout.cavern_cases n report' s (hretries.trans hmore) with
      ⟨j, _, _, hbefore, hfault', hreport', _⟩ | ⟨hnone, _⟩
    · have hjk : j ≤ k := Nat.le_of_not_lt fun hlt => hbefore k hlt htaken'
      refine ⟨hfault', ?_⟩
      rw [hreport, hreport']
      exact Int.add_le_add_right (Int.ofNat_le.mpr hjk) 1
    · exact absurd htaken' (hnone k (hk.trans hmore))
  · rw [hfault] at hfailed
    cases hfailed

/-! ## Generations -/

/-- Caves are monotone in what is asked of them. More floor, smoothed with a lower threshold, stays
more floor with a largest region that is no smaller. And a generation that succeeds also does so,
after no more attempts, when less is asked of the cave. -/
theorem Handover.generate_permissive :
    (∀ (g g' : Grid) (times : Nat) (threshold threshold' : Int),
        g.width = g'.width → g.height = g'.height → g.floor ⊆ g'.floor → threshold' ≤ threshold →
        (Cavern.smooth threshold times g).floor ⊆ (Cavern.smooth threshold' times g').floor ∧
          (Cavern.smooth threshold times g).keepLargest.2
            ≤ (Cavern.smooth threshold' times g').keepLargest.2) ∧
      ∀ (h h' : Handover) (seed : UInt32) (a b : Template),
        a.algorithm = .cavern → b.fault? = none → b = { a with cavern := b.cavern } →
        b.cavern.Relaxes a.cavern a.width a.height → (h.generate seed a).1 = true →
        (h'.generate seed b).1 = true ∧
          (h'.generate seed b).2.report.attempts ≤ (h.generate seed a).2.report.attempts := by
  refine ⟨fun g g' times threshold threshold' hwidth hheight hfloor hthreshold => ?_,
    fun h h' seed a b halgorithm haccepted' hsame hrelaxes hok => ?_⟩
  · have hsmooth := Cavern.floor_smooth_mono hwidth hheight hfloor hthreshold times
    exact ⟨hsmooth, Cavern.keepLargest_mono hsmooth⟩
  · obtain ⟨haccepted, hfault⟩ := Handover.generate_ok_iff.mp hok
    have hretries := (Template.cavern_accepted haccepted halgorithm).retries
    have halgorithm' : b.algorithm = .cavern := by
      rw [hsame]
      exact halgorithm
    have hwidth : b.width = a.width := by rw [hsame]
    have hheight : b.height = a.height := by rw [hsame]
    rw [Handover.generate_ok_iff, Handover.report_generate haccepted,
      Handover.report_generate haccepted', Template.laid_cavern halgorithm,
      Template.laid_cavern halgorithm']
    rw [Template.laid_cavern halgorithm] at hfault
    obtain ⟨hfault', hattempts⟩ := Layout.cavern_relaxed (m := Map.blank seed a)
      (n := Map.blank seed b) hrelaxes hretries hwidth hheight hfault
    exact ⟨⟨haccepted', hfault'⟩, hattempts⟩

/-- A cave on the smallest map that is smoothed once. -/
def Template.strictCave : Template :=
  { algorithm := .cavern, width := 8, height := 8,
    cavern := { smoothings := 1, threshold := 5, minArea := 4 } }

/-- The same cave with less asked of it. -/
def Template.lenientCave : Template :=
  { Template.strictCave with
      cavern := { Template.strictCave.cavern with threshold := 4, maxRetries := 6, minArea := 2 } }

/-- A broad strip of floor smoothed against a narrow one, and the two caves from seed 1. -/
theorem Handover.generate_permissive_lenientCave :
    let narrow := Grid.ofFloor 8 8 fun p => decide (p.x < 3)
    let broad := Grid.ofFloor 8 8 fun p => decide (p.x < 4)
    (Cavern.smooth 5 2 narrow).floor ⊆ (Cavern.smooth 4 2 broad).floor ∧
      (Cavern.smooth 5 2 narrow).keepLargest.2 ≤ (Cavern.smooth 4 2 broad).keepLargest.2 ∧
      (Handover.generate {} 1 .lenientCave).1 = true ∧
      (Handover.generate {} 1 .lenientCave).2.report.attempts
        ≤ (Handover.generate {} 1 .strictCave).2.report.attempts := by
  intro narrow broad
  have hfloor : narrow.floor ⊆ broad.floor := by
    rw [Grid.floor_ofFloor, Grid.floor_ofFloor]
    intro q hq
    have hlt : q.x < 3 := of_decide_eq_true hq.2
    exact ⟨hq.1, decide_eq_true (by omega)⟩
  have hlaid : (Template.strictCave.laid 1).1.fault = none := by decide +kernel
  have hok : (Handover.generate {} 1 .strictCave).1 = true :=
    Handover.generate_ok_iff.mpr ⟨by decide, hlaid⟩
  have hrelaxes : Template.lenientCave.cavern.Relaxes Template.strictCave.cavern 8 8 :=
    ⟨rfl, by decide, by decide, by decide⟩
  obtain ⟨hgrids, hgenerations⟩ := Handover.generate_permissive
  obtain ⟨hsmooth, harea⟩ := hgrids narrow broad 2 5 4 rfl rfl hfloor (by decide)
  obtain ⟨hok', hattempts⟩ :=
    hgenerations {} {} 1 .strictCave .lenientCave rfl (by decide) rfl hrelaxes hok
  exact ⟨hsmooth, harea, hok', hattempts⟩

end Dungeon
