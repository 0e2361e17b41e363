import Dungeon.Proofs.Rooms

/-!
# Templates of one layout

A template says how a map is laid out and what its rooms are to hold. Only the first matters to
where floor, rooms and corridors come to lie: a layout reads nothing of a template but its own
parameters, and it is over before anything is drawn for the rooms. So two templates that ask for the
same layout give the same map but for what its rooms hold, or fail in the same way.

Results:
1. `Layout.run_congr`: a layout reads its own parameters only.
2. `Layout.run_withArea`: it does not look at the template that is recorded on the map.
3. `Template.laid_sameLayout`: so from one seed templates of the same layout leave the same plan.
4. `Handover.generate_flavour`: their generations end in the same way, with maps of the same shape.
-/

namespace Dungeon

/-- The two templates ask for the same layout. They may differ in all that is not about it, and in
the parameters of the other layouts. -/
structure Template.SameLayout (a b : Template) : Prop where
  algorithm : a.algorithm = b.algorithm
  width : a.width = b.width
  height : a.height = b.height
  partition : a.algorithm = .partition → a.partition = b.partition
  cavern : a.algorithm = .cavern → a.cavern = b.cavern
  scatter : a.algorithm = .scatter → a.scatter = b.scatter

/-! ## Layouts -/

section Layouts

variable {a b : Template}

theorem Layout.run_congr (h : a.SameLayout b) : Layout.run a = Layout.run b := by
  funext m report
  unfold Layout.run
  rw [← h.algorithm]
  cases halgorithm : a.algorithm with
  | partition => rw [h.partition halgorithm]
  | cavern => rw [h.cavern halgorithm]
  | scatter => rw [h.scatter halgorithm]
  | unlisted c => rfl

/-- The result with another template recorded on the map. -/
def LayoutResult.withArea (laid : LayoutResult) (area : Template) : LayoutResult :=
  { laid with map := { laid.map with area } }

variable (m : Map) (report : Report) (area : Template) (s : Source)

theorem Layout.partition_withArea (p : PartitionParams) :
    (Layout.partition p { m with area } report).run s =
      (((Layout.partition p m report).run s).1.withArea area,
        ((Layout.partition p m report).run s).2) := by
  unfold Layout.partition
  rw [StateT.run_bind, StateT.run_bind]
  dsimp only [bind, pure, StateT.run_pure]
  split
  · rfl
  · rfl

theorem Layout.scatter_withArea (p : ScatterParams) :
    (Layout.scatter p { m with area } report).run s =
      (((Layout.scatter p m report).run s).1.withArea area,
        ((Layout.scatter p m report).run s).2) := rfl

theorem Cavern.Attempt.taken_withArea (made : Cavern.Attempt) (p : CavernParams) :
    made.taken p { m with area } report = (made.taken p m report).withArea area := by
  unfold taken
  rw [Map.foldl_addRoom, Map.foldl_addRoom]
  rfl

theorem Layout.cavern_withArea (p : CavernParams) :
    (Layout.cavern p { m with area } report).run s =
      (((Layout.cavern p m report).run s).1.withArea area,
        ((Layout.cavern p m report).run s).2) := by
  rw [Layout.cavern_run, Layout.cavern_run]
  -- The search for a cave sees the size of the map and the source, and nothing else of the map.
  cases Cavern.search (Cavern.attempt p m.grid.width m.grid.height s)
      (p.leastArea m.grid.width m.grid.height) (p.maxRetries + 1).toNat 0 none 0 with
  | found made => 
    rw [Cavern.conclude_found, Cavern.conclude_found, made.taken_withArea]
  | exhausted last best =>
    cases last with
    | none => rfl
    | some made => rfl

theorem Layout.run_withArea (a : Template) :
    (Layout.run a { m with area } report).run s =
      (((Layout.run a m report).run s).1.withArea area, ((Layout.run a m report).run s).2) := by
  unfold Layout.run
  cases a.algorithm with
  | partition => exact Layout.partition_withArea m report area s a.partition
  | cavern => exact Layout.cavern_withArea m report area s a.cavern
  | scatter => exact Layout.scatter_withArea m report area s a.scatter
  | unlisted c => rfl

/-- From one seed the layouts of both templates leave the same, but for the template on the map. -/
theorem Template.laid_sameLayout (h : a.SameLayout b) (seed : UInt32) :
    b.laid seed = ((a.laid seed).1.withArea b, (a.laid seed).2) := by
  have hblank : Map.blank seed b = { Map.blank seed a with area := b } := by
    rw [Map.blank, Map.blank, h.width, h.height]
  rw [laid, laid, ← Layout.run_congr h, hblank, Layout.run_withArea]

end Layouts

/-! ## Generations -/

namespace Handover

/-- Two accepted templates of the same layout both succeed or both fail, with the same message and
the same report. Maps that are made have the same tiles and the same corridors, and their rooms have
the same numbers, places, sizes and roles. -/
theorem generate_flavour (h : Handover) (seed : UInt32) (a b : Template)
    (haccepted : a.fault? = none) (haccepted' : b.fault? = none) (hsame : a.SameLayout b) :
    let made := h.generate seed a
    let made' := h.generate seed b
    made'.1 = made.1 ∧ made'.2.message = made.2.message ∧ made'.2.report = made.2.report ∧
      (made.1 = true →
        made'.2.map.grid = made.2.map.grid ∧ made'.2.map.corridors = made.2.map.corridors ∧
          made'.2.map.rooms.map Room.outline = made.2.map.rooms.map Room.outline) := by
  have hlaid := Template.laid_sameLayout hsame seed
  have hfaults : (b.laid seed).1.fault = (a.laid seed).1.fault := by rw [hlaid]; rfl
  have hreports : (b.laid seed).1.report = (a.laid seed).1.report := by rw [hlaid]; rfl
  intro made made'
  cases hfault : (a.laid seed).1.fault with
  | some fault =>
    have hmade : made = _ := generate_of_error h (generate_of_fault haccepted hfault)
    have hmade' : made' = _ :=
      generate_of_error h (generate_of_fault haccepted' (hfaults.trans hfault))
    rw [hmade, hmade']
    exact ⟨rfl, rfl, hreports, fun hok => by cases hok⟩
  | none =>
    have hmade : made = _ := generate_of_ok h (generate_of_laid haccepted hfault)
    have hmade' : made' = _ :=
      generate_of_ok h (generate_of_laid haccepted' (hfaults.trans hfault))
    -- Both maps are populated, from the same rooms, whose outlines are fixed by that.
    obtain ⟨rooms, hpopulated, houtlines⟩ :=
      (a.laid seed).1.map.populate_outlines a (a.laid seed).2
    obtain ⟨rooms', hpopulated', houtlines'⟩ :=
      (b.laid seed).1.map.populate_outlines b (b.laid seed).2
    rw [hpopulated] at hmade
    rw [hpopulated'] at hmade'
    rw [hmade, hmade']
    rw [hlaid] at houtlines'
    refine ⟨rfl, rfl, hreports, fun _ => ⟨?_, ?_, houtlines'.trans houtlines.symm⟩⟩
    · rw [hlaid]
      rfl
    · rw [hlaid]
      rfl

/-- Scattered rooms, against a template with other words, other densities, another level, and faulty
parameters for the layouts it does not use. -/
theorem generate_flavour_hoard :
    let a : Template := { algorithm := .scatter, width := 8, height := 8 }
    let b : Template := { a with
      name := "Hoard", theme := .castle, level := 9, treasureDensity := .percent 100,
      partition := { minLeaf := -1 }, cavern := { maxRetries := -1 } }
    a.fault? = none ∧ b.fault? = none ∧ a.SameLayout b ∧
      (generate {} 1 b).1 = (generate {} 1 a).1 ∧ (generate {} 1 a).1 = true ∧
      (generate {} 1 b).2.map.grid = (generate {} 1 a).2.map.grid := by
  intro a b
  have haccepted : a.fault? = none := by decide
  have haccepted' : b.fault? = none := by decide
  have hsame : a.SameLayout b :=
    ⟨rfl, rfl, rfl, (fun h => by cases h), (fun h => by cases h), fun _ => rfl⟩
  have hok : (generate {} 1 a).1 = true := by decide +kernel
  obtain ⟨hresult, _, _, hmap⟩ := generate_flavour {} 1 a b haccepted haccepted' hsame
  exact ⟨haccepted, haccepted', hsame, hresult, hok, (hmap hok).1⟩

end Handover
end Dungeon
