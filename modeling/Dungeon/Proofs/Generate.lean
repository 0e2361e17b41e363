import Dungeon.Generate
import Dungeon.Proofs.Laid
import Dungeon.Proofs.Partition
import Dungeon.Proofs.Scatter

/-!
# Generations

A generation ends in one of four ways, and `Ending` says what is known in each of them. What holds
of all generations is read off the endings.

Results:
1. `generate_ends`: a generation comes to an `Ending`.
2. `Handover.generate_ok_iff`, `Handover.report_generate`, `Handover.map_generate`: what a generation
   takes over from its layout.
3. `Handover.generate_contract`: what becomes of the things that are handed over.
4. `Handover.generate_sound`: a map that is generated is sound, and its floor is in one piece.
-/

namespace Dungeon

/-! ## Messages -/

theorem TemplateFault.message_ne_nil (fault : TemplateFault) : fault.message ≠ [] := by
  cases fault <;> simp [message, Text.lit_ne_nil]

theorem Fault.message_ne_nil (fault : Fault) : fault.message ≠ [] := by
  cases fault with
  | badTemplate fault => exact fault.message_ne_nil
  | tooFewRooms depth rooms needed => simp [message, Text.lit_ne_nil]
  | noCave area attempts best => simp [message, Text.lit_ne_nil]

/-! ## The ways in which a generation ends -/

/-- How a generation ends: with what outcome, and with what report. -/
inductive Ending (seed : UInt32) (a : Template) : Except Fault Map × Report → Prop where
  | badTemplate {fault : TemplateFault} (broken : a.fault? = some fault) :
      Ending seed a (.error (.badTemplate fault), { failure := some .invalidParameter })
  | tooFewRooms {rooms : Nat} {report : Report} (accepted : a.fault? = none)
      (algorithm : a.algorithm = .partition) (failure : report.failure = some .generationTimeout)
      (quiet : report.warnings = []) (few : report.leaves < a.partition.minRooms) :
      Ending seed a (.error (.tooFewRooms a.partition.maxDepth rooms a.partition.minRooms), report)
  | noCave {area : Int} {best : Nat} {report : Report} (accepted : a.fault? = none)
      (algorithm : a.algorithm = .cavern) (failure : report.failure = some .disconnectedMap)
      (quiet : report.warnings = []) (attempts : report.attempts = a.cavern.maxRetries + 1) :
      Ending seed a (.error (.noCave area (a.cavern.maxRetries + 1) best), report)
  | made {m : Map} {report : Report} (accepted : a.fault? = none) (well : WellLaid a m)
      (stocked : ∀ r ∈ m.rooms, r.Stocked) (recorded : m.seed = seed)
      (failure : report.failure = none)
      (warned : report.warnings ≠ [] ↔
        a.algorithm = .scatter ∧ (m.rooms.length : Int) < a.scatter.targetRooms) :
      Ending seed a (.ok m, report)

section Ends

variable {seed : UInt32} {a : Template} {m : Map} {report : Report}

/-- Populating a map that is laid out well is the good ending. -/
theorem populate_ends (haccepted : a.fault? = none) (hwell : WellLaid a m) (hseed : m.seed = seed)
    (hfailure : report.failure = none)
    (hwarned : report.warnings ≠ [] ↔
      a.algorithm = .scatter ∧ (m.rooms.length : Int) < a.scatter.targetRooms) :
    (do
      let map ← m.populate a
      pure (Except.ok map, report) : Draw (Except Fault Map × Report)).Ensures (Ending seed a) := by
  refine (m.populate_ensures a).bind fun populated hpopulated => .pure ?_
  obtain ⟨rooms, rfl, hbare, hstocked⟩ := hpopulated
  -- There are as many rooms as before, so the warning still tells the truth of the final map.
  rw [← length_bare hbare] at hwarned
  exact .made haccepted (hwell.of_bare hbare) hstocked hseed hfailure hwarned

theorem Map.blank_spec (haccepted : a.fault? = none) : Blank a (blank seed a) := by
  obtain ⟨⟨hwidth, _⟩, hheight, _⟩ := Template.size_accepted haccepted
  refine ⟨rfl, ?_, ?_, Grid.size_tiles_walls a.width a.height⟩
  · simp only [blank, ofSize, Grid.walls]
    omega
  · simp only [blank, ofSize, Grid.walls]
    omega

theorem partition_ends (haccepted : a.fault? = none) (halgorithm : a.algorithm = .partition) :
    (layAndPopulate a (Map.blank seed a)).Ensures (Ending seed a) := by
  have hsound : a.partition.Sound (Map.blank seed a).grid.width (Map.blank seed a).grid.height :=
    Template.partition_accepted haccepted halgorithm
  unfold layAndPopulate Layout.run
  rw [halgorithm]
  refine (Layout.partition_ensures {} hsound).bind fun laid hlaid => ?_
  obtain ⟨rooms, corridors, hplan, rfl⟩ := hlaid
  have hpadding : a.padding ≤ 2 * a.partition.margin := by
    rw [Template.padding, halgorithm]
    exact a.partition.padding_le_margins
  by_cases hfew : (rooms.length : Int) < a.partition.minRooms
  · rw [if_pos hfew]
    exact .pure (.tooFewRooms haccepted halgorithm rfl rfl hfew)
  · rw [if_neg hfew]
    have hwell : WellLaid a ((Map.blank seed a).ofPlan rooms corridors) :=
      .of_plan (Map.blank_spec haccepted)
        (hplan.mono hsound.room a.partition.one_le_margin hpadding)
    refine populate_ends haccepted hwell rfl rfl (iff_of_false (fun hne => hne rfl) ?_)
    rw [halgorithm]
    exact fun h => by cases h.1

theorem cavern_ends (haccepted : a.fault? = none) (halgorithm : a.algorithm = .cavern) :
    (layAndPopulate a (Map.blank seed a)).Ensures (Ending seed a) := by
  have hsound := Template.cavern_accepted haccepted halgorithm
  have hcases : (Layout.cavern a.cavern (Map.blank seed a) {}).Ensures fun laid =>
      (laid.fault = none ∧ laid.report.failure = none ∧ laid.report.warnings = [] ∧
        WellLaid a laid.map ∧ laid.map.seed = seed) ∨
      ∃ area best, laid.fault = some (.noCave area (a.cavern.maxRetries + 1) best) ∧
        laid.report.failure = some .disconnectedMap ∧ laid.report.warnings = [] ∧
        laid.report.attempts = a.cavern.maxRetries + 1 := by
    intro s
    rcases Layout.cavern_cases (Map.blank seed a) {} s hsound.retries with
      ⟨k, _, _, _, hfault, hreport, q, _, hcave⟩ | ⟨_, hfault, hreport⟩
    · exact .inl ⟨hfault, by rw [hreport], by rw [hreport],
        .of_cave (Map.blank_spec haccepted) halgorithm hcave, hcave.seed⟩
    · exact .inr ⟨_, _, hfault, by rw [hreport], by rw [hreport], by rw [hreport]⟩
  unfold layAndPopulate Layout.run
  rw [halgorithm]
  refine hcases.bind fun laid hlaid => ?_
  rcases hlaid with ⟨hfault, hfailure, hwarnings, hwell, hseed⟩ |
    ⟨area, best, hfault, hfailure, hwarnings, hattempts⟩
  · rw [hfault]
    refine populate_ends haccepted hwell hseed hfailure (iff_of_false (fun hne => hne hwarnings) ?_)
    rw [halgorithm]
    exact fun h => by cases h.1
  · rw [hfault]
    exact .pure (.noCave haccepted halgorithm hfailure hwarnings hattempts)

theorem scatter_ends (haccepted : a.fault? = none) (halgorithm : a.algorithm = .scatter) :
    (layAndPopulate a (Map.blank seed a)).Ensures (Ending seed a) := by
  have hsound : a.scatter.Sound (Map.blank seed a).grid.width (Map.blank seed a).grid.height :=
    Template.scatter_accepted haccepted halgorithm
  unfold layAndPopulate Layout.run
  rw [halgorithm]
  refine (Layout.scatter_ensures {} hsound).bind fun laid hlaid => ?_
  obtain ⟨rooms, corridors, hplan, rfl⟩ := hlaid
  have hpadding : a.padding ≤ a.scatter.padding := by rw [Template.padding, halgorithm]
  have hwell : WellLaid a ((Map.blank seed a).ofPlan rooms corridors) :=
    .of_plan (Map.blank_spec haccepted) (hplan.mono hsound.room le_rfl hpadding)
  refine populate_ends haccepted hwell rfl rfl ?_
  rw [List.nil_append, and_iff_right halgorithm]
  split
  · next hfew => exact iff_of_true (List.cons_ne_nil _ _) hfew
  · next hfew => exact iff_of_false (fun hne => hne rfl) hfew

/-- A generation comes to one of the four endings. -/
theorem generate_ends (seed : UInt32) (a : Template) : Ending seed a (generate seed a) := by
  unfold generate
  split
  · next fault hfault => exact .badTemplate hfault
  · next haccepted =>
    have hends : (layAndPopulate a (Map.blank seed a)).Ensures (Ending seed a) := by
      rcases Template.algorithm_accepted haccepted with halgorithm | halgorithm | halgorithm
      · exact partition_ends haccepted halgorithm
      · exact cavern_ends haccepted halgorithm
      · exact scatter_ends haccepted halgorithm
    exact hends (.ofSeed seed)

end Ends

/-! ## The layout of a generation -/

/-- What the layout of a template leaves on a blank map, run from the source of a seed, and the
source after it. -/
def Template.laid (a : Template) (seed : UInt32) : LayoutResult × Source :=
  (Layout.run a (Map.blank seed a) {}).run (.ofSeed seed)

section Laid

variable {seed : UInt32} {a : Template}

theorem Template.laid_partition (halgorithm : a.algorithm = .partition) (seed : UInt32) :
    a.laid seed = (Layout.partition a.partition (Map.blank seed a) {}).run (.ofSeed seed) := by
  rw [laid, Layout.run, halgorithm]

theorem Template.laid_cavern (halgorithm : a.algorithm = .cavern) (seed : UInt32) :
    a.laid seed = (Layout.cavern a.cavern (Map.blank seed a) {}).run (.ofSeed seed) := by
  rw [laid, Layout.run, halgorithm]

theorem generate_of_fault {fault : Fault} (haccepted : a.fault? = none)
    (hfault : (a.laid seed).1.fault = some fault) :
    generate seed a = (.error fault, (a.laid seed).1.report) := by
  unfold Template.laid at *
  rw [generate, haccepted, layAndPopulate, StateT.run_bind]
  simp only [bind, hfault]
  rfl

theorem generate_of_laid (haccepted : a.fault? = none) (hfault : (a.laid seed).1.fault = none) :
    generate seed a = (.ok (((a.laid seed).1.map.populate a).run (a.laid seed).2).1,
      (a.laid seed).1.report) := by
  unfold Template.laid at *
  rw [generate, haccepted, layAndPopulate, StateT.run_bind]
  simp only [bind, hfault]
  rfl

end Laid

namespace Handover

/-! ## What is handed over -/

theorem generate_of_ok {seed : UInt32} {a : Template} {m : Map} {report : Report} (h : Handover)
    (hgen : Dungeon.generate seed a = (.ok m, report)) :
    h.generate seed a = (true, { h with map := m, report }) := by
  rw [generate, hgen]

theorem generate_of_error {seed : UInt32} {a : Template} {fault : Fault} {report : Report}
    (h : Handover) (hgen : Dungeon.generate seed a = (.error fault, report)) :
    h.generate seed a = (false, { h with report, message := fault.message }) := by
  rw [generate, hgen]

section Laid

variable {h : Handover} {seed : UInt32} {a : Template}

/-- A generation succeeds just when its template has no fault and its layout does not fail. -/
theorem generate_ok_iff :
    (h.generate seed a).1 = true ↔ a.fault? = none ∧ (a.laid seed).1.fault = none := by
  cases haccepted : a.fault? with
  | some fault =>
    have hgen : Dungeon.generate seed a =
        (.error (.badTemplate fault), { failure := some .invalidParameter }) := by
      rw [Dungeon.generate, haccepted]
      rfl
    rw [generate_of_error h hgen]
    exact iff_of_false Bool.false_ne_true fun hnone => by cases hnone.1
  | none =>
    cases hfault : (a.laid seed).1.fault with
    | some fault =>
      rw [generate_of_error h (generate_of_fault haccepted hfault)]
      exact iff_of_false Bool.false_ne_true fun hnone => by cases hnone.2
    | none =>
      rw [generate_of_ok h (generate_of_laid haccepted hfault)]
      exact iff_of_true rfl ⟨rfl, rfl⟩

/-- The report on an accepted template is that of its layout, whether or not this fails. -/
theorem report_generate (haccepted : a.fault? = none) :
    (h.generate seed a).2.report = (a.laid seed).1.report := by
  cases hfault : (a.laid seed).1.fault with
  | some fault => rw [generate_of_error h (generate_of_fault haccepted hfault)]
  | none => rw [generate_of_ok h (generate_of_laid haccepted hfault)]

/-- The map of a success is what the layout leaves, populated from the source after it. -/
theorem map_generate (hok : (h.generate seed a).1 = true) :
    (h.generate seed a).2.map = (((a.laid seed).1.map.populate a).run (a.laid seed).2).1 := by
  obtain ⟨haccepted, hfault⟩ := generate_ok_iff.mp hok
  rw [generate_of_ok h (generate_of_laid haccepted hfault)]

/-- A failure leaves the map as it was. -/
theorem map_generate_failed (hfailed : (h.generate seed a).1 = false) :
    (h.generate seed a).2.map = h.map := by
  rcases hgen : Dungeon.generate seed a with ⟨fault | m, report⟩
  · rw [generate_of_error h hgen]
  · rw [generate_of_ok h hgen] at hfailed
    cases hfailed

end Laid

/-- After a failure the map is as it was, there is a message, and the report says which failure it
is; which one is possible depends on the template alone. After a success the message is as it was,
the map records what it was made from, and warnings tell of missing rooms. The report never shows
what it held before. -/
theorem generate_contract (h : Handover) (seed : UInt32) (a : Template) :
    let ok := (h.generate seed a).1
    let made := (h.generate seed a).2
    (ok = false →
        made.map = h.map ∧ made.message ≠ [] ∧ made.report.warnings = [] ∧
          (made.report.failure = some .invalidParameter ↔ a.fault? ≠ none) ∧
          (made.report.failure = some .generationTimeout ↔
            a.fault? = none ∧ a.algorithm = .partition) ∧
          (made.report.failure = some .disconnectedMap ↔
            a.fault? = none ∧ a.algorithm = .cavern) ∧
          (made.report.failure = some .generationTimeout →
            made.report.leaves < a.partition.minRooms) ∧
          (made.report.failure = some .disconnectedMap →
            made.report.attempts = a.cavern.maxRetries + 1)) ∧
      (a.fault? = none → a.algorithm = .scatter → ok = true) ∧
      (ok = true →
        a.fault? = none ∧ made.report.failure = none ∧ made.message = h.message ∧
          made.map.seed = seed ∧ made.map.area = a ∧
          (made.report.warnings ≠ [] ↔
            a.algorithm = .scatter ∧ (made.map.rooms.length : Int) < a.scatter.targetRooms)) ∧
      ∀ h' : Handover, (h'.generate seed a).2.report = made.report := by
  have hends := generate_ends seed a
  generalize hgen : Dungeon.generate seed a = outcome at hends
  cases hends with
  | @badTemplate fault broken =>
    simp only [generate_of_error _ hgen]
    refine ⟨fun _ => ?_, fun haccepted => ?_, fun hok => (by cases hok), fun _ => trivial⟩
    · refine ⟨trivial, Fault.message_ne_nil _, trivial, ?_⟩
      simp [broken]
    · rw [broken] at haccepted
      cases haccepted
  | tooFewRooms accepted algorithm failure quiet few =>
    simp only [generate_of_error _ hgen]
    refine ⟨fun _ => ?_, fun _ hscatter => ?_, fun hok => (by cases hok), fun _ => trivial⟩
    · refine ⟨trivial, Fault.message_ne_nil _, quiet, ?_⟩
      simp [accepted, algorithm, failure, few]
    · rw [algorithm] at hscatter
      cases hscatter
  | noCave accepted algorithm failure quiet attempts =>
    simp only [generate_of_error _ hgen]
    refine ⟨fun _ => ?_, fun _ hscatter => ?_, fun hok => (by cases hok), fun _ => trivial⟩
    · refine ⟨trivial, Fault.message_ne_nil _, quiet, ?_⟩
      simp [accepted, algorithm, failure, attempts]
    · rw [algorithm] at hscatter
      cases hscatter
  | made accepted well stocked recorded failure warned =>
    simp only [generate_of_ok _ hgen]
    refine ⟨fun hok => (by cases hok), fun _ _ => trivial, fun _ => ?_, fun _ => trivial⟩
    exact ⟨accepted, failure, trivial, recorded, well.area, warned⟩

/-! ## The map -/

/-- A generated map passes its audit. Its tiles are wall and floor, its rooms are floor, and all of
its floor is in one piece. Unless it is a cave, the floor is what rooms and corridors cover, and the
outermost ring of tiles is wall. -/
theorem generate_sound (h : Handover) (seed : UInt32) (a : Template)
    (hok : (h.generate seed a).1 = true) :
    let m := (h.generate seed a).2.map
    m.audit? a.padding = none ∧
      (∀ t ∈ m.grid.tiles, t = .wall ∨ t = .floor) ∧
      (∀ r ∈ m.rooms, ∀ p, r.contains p = true → m.grid.tileAt p = .floor) ∧
      (m.grid.floor.Nonempty ∧ InOnePiece m.grid.floor) ∧
      (a.algorithm ≠ .cavern →
        m.grid.floor = Grid.footprint m.rooms m.corridors ∧
          ∀ p, m.grid.inBounds p = true →
            p.x = 0 ∨ p.x = m.grid.width - 1 ∨ p.y = 0 ∨ p.y = m.grid.height - 1 →
              m.grid.tileAt p = .wall) := by
  have hends := generate_ends seed a
  generalize hgen : Dungeon.generate seed a = outcome at hends
  cases hends with
  | badTemplate _ =>
    rw [generate_of_error h hgen] at hok
    cases hok
  | tooFewRooms _ _ _ _ _ =>
    rw [generate_of_error h hgen] at hok
    cases hok
  | noCave _ _ _ _ _ =>
    rw [generate_of_error h hgen] at hok
    cases hok
  | @made m report accepted well stocked recorded failure warned =>
    rw [generate_of_ok h hgen]
    obtain ⟨first, rest, hrooms⟩ := List.exists_cons_of_ne_nil well.someRoom
    have hfirst : first ∈ m.rooms := hrooms ▸ List.mem_cons_self
    refine ⟨Map.audit?_eq_none.mpr (well.sound stocked), well.plain,
      fun r hr p hp => Grid.tileAt_of_mem_floor (well.rooms r hr p hp),
      ⟨⟨_, well.center_mem_floor hfirst⟩, well.onePiece⟩, fun halgorithm => ?_⟩
    obtain ⟨_, hfloor, _⟩ := well.plan halgorithm
    exact ⟨hfloor, fun p hin hp => well.tileAt_ring halgorithm hin hp⟩

/-- The smallest template for scattered rooms, generated from seed 1: a sound map. -/
theorem generate_sound_scatter :
    (Handover.generate {} 1 { algorithm := .scatter, width := 8, height := 8 }).1 = true ∧
      (Handover.generate {} 1 { algorithm := .scatter, width := 8, height := 8 }).2.map.audit? 2
        = none :=
  have hok : (Handover.generate {} 1 { algorithm := .scatter, width := 8, height := 8 }).1 = true :=
    by decide +kernel
  ⟨hok, (generate_sound {} 1 { algorithm := .scatter, width := 8, height := 8 } hok).1⟩

end Handover
end Dungeon
