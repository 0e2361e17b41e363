import Dungeon.Proofs.Generate

/-!
# Retried caves

A retry draws from a source of its own, which is started from a seed. So it is the same as the first
attempt of a generation from that seed, and since nothing is carried over from the attempts before
it, what follows is the same too: the chambers, and what they are populated with. The two maps differ
in nothing but the seed they record.

Results:
1. `Cavern.attempt_congr`: an attempt depends on its source alone.
2. `Layout.cavern_of_ok`, `Layout.cavern_of_first`: what a layout leaves that takes an attempt, and
   when it takes the first one.
3. `Layout.cavern_replay`: a layout that takes a retry, against one that starts with its source.
4. `Handover.generate_replay`: the same for generations.
-/

namespace Dungeon

namespace Cavern

/-! ## Attempts -/

section Attempt

variable {p : CavernParams} {width height : Int} {start start' : Source} {k k' : Nat}

theorem sourceOf_zero : sourceOf start 0 = start := if_pos rfl

theorem sourceOf_retry (seed : UInt32) (hk : k ≠ 0) : sourceOf (.ofSeed seed) k =
    .ofSeed (Hash.combine₃ seed (Hash.tag "CAVERN") (UInt32.ofNat k)) := if_neg hk

/-- Attempts with the same source differ in their numbers only. -/
theorem attempt_congr (h : sourceOf start k = sourceOf start' k') :
    attempt p width height start k = { attempt p width height start' k' with number := k } := by
  unfold attempt
  rw [h]
  rfl

end Attempt

theorem conclude_exhausted_fault {p : CavernParams} {m : Map} {report : Report} {s : Source}
    (last : Option Attempt) (best : Nat) :
    (((Search.exhausted last best).conclude p m report).run s).1.fault ≠ none := by
  cases last with
  | none => exact Option.some_ne_none _
  | some a => exact Option.some_ne_none _

end Cavern

/-! ## Another seed on the map -/

theorem Map.addRooms_reseeded (m : Map) (seed : UInt32) (rects : List Rect) :
    rects.foldl Map.addRoom { m with seed } = { rects.foldl Map.addRoom m with seed } := by
  rw [Map.foldl_addRoom, Map.foldl_addRoom]

theorem Map.populate_reseeded (m : Map) (seed : UInt32) (a : Template) (s : Source) :
    (({ m with seed } : Map).populate a).run s =
      ({ ((m.populate a).run s).1 with seed }, ((m.populate a).run s).2) := rfl

/-- The map that an attempt leaves does not depend on the number of the attempt, nor on the seed
that was on the map. -/
theorem Cavern.Attempt.taken_as_first (a : Cavern.Attempt) (p : CavernParams) (m : Map)
    (report : Report) (seed : UInt32) :
    ({ a with number := 0 } : Cavern.Attempt).taken p { m with seed } report =
      { a.taken p m report with
          map := { (a.taken p m report).map with seed }
          report := { (a.taken p m report).report with attempts := 1 } } := by
  have hmap := Map.addRooms_reseeded (a.record m report).1 seed (Chambers.ofGrid a.grid p)
  unfold taken
  rw [← hmap]
  rfl

/-! ## Layouts -/

section Layout

variable {p : CavernParams} {m : Map} {report : Report} {s : Source}

open Cavern

/-- A layout that does not fail takes one of the attempts. -/
theorem Layout.cavern_of_ok (hfault : ((Layout.cavern p m report).run s).1.fault = none) :
    ∃ k : Nat, (attempt p m.grid.width m.grid.height s k).suffices
        (p.leastArea m.grid.width m.grid.height) = true ∧
      (Layout.cavern p m report).run s =
        ((attempt p m.grid.width m.grid.height s k).taken p m report,
          (attempt p m.grid.width m.grid.height s k).source) := by
  rw [Layout.cavern_run] at hfault ⊢
  rcases search_cases (attempt p m.grid.width m.grid.height s)
      (p.leastArea m.grid.width m.grid.height) (p.maxRetries + 1).toNat 0 none 0 with
    ⟨k, _, hfound, hsuffices, _⟩ | ⟨hexhausted, _⟩
  · rw [Nat.zero_add] at hfound hsuffices
    exact ⟨k, hsuffices, by rw [hfound, conclude_found]⟩
  · rw [hexhausted] at hfault
    exact absurd hfault (conclude_exhausted_fault _ _)

/-- A first attempt that suffices is taken. -/
theorem Layout.cavern_of_first (hretries : 0 ≤ p.maxRetries)
    (hsuffices : (attempt p m.grid.width m.grid.height s 0).suffices
      (p.leastArea m.grid.width m.grid.height) = true) :
    (Layout.cavern p m report).run s =
      ((attempt p m.grid.width m.grid.height s 0).taken p m report,
        (attempt p m.grid.width m.grid.height s 0).source) := by
  have hbudget : (p.maxRetries + 1).toNat = p.maxRetries.toNat + 1 := by omega
  rw [Layout.cavern_run, hbudget, search, if_pos hsuffices, conclude_found]

/-- A layout that takes the attempt with a number leaves what one leaves that starts with the source
of this attempt. Only the number differs, and the seed, if the map had another one. -/
theorem Layout.cavern_replay (hretries : 0 ≤ p.maxRetries) {k : Nat} (seed : UInt32)
    (hfault : ((Layout.cavern p m report).run s).1.fault = none)
    (hattempts : ((Layout.cavern p m report).run s).1.report.attempts = k + 1) :
    let laid := (Layout.cavern p m report).run s
    (Layout.cavern p { m with seed } report).run (sourceOf s k) =
      ({ laid.1 with map := { laid.1.map with seed },
                     report := { laid.1.report with attempts := 1 } }, laid.2) := by
  obtain ⟨j, hsuffices, hlaid⟩ := Layout.cavern_of_ok hfault
  rw [hlaid] at hattempts ⊢
  -- The report tells which attempt was taken.
  have hjk : j = k := by
    rw [Attempt.taken_report, attempt_number] at hattempts
    dsimp only at hattempts
    omega
  subst hjk
  have hfirst : attempt p m.grid.width m.grid.height (sourceOf s j) 0 =
      { attempt p m.grid.width m.grid.height s j with number := 0 } := attempt_congr sourceOf_zero
  have hsuffices' : (attempt p m.grid.width m.grid.height (sourceOf s j) 0).suffices
      (p.leastArea m.grid.width m.grid.height) = true := by
    rw [hfirst]
    exact hsuffices
  rw [Layout.cavern_of_first (m := { m with seed }) hretries hsuffices', hfirst]
  generalize attempt p m.grid.width m.grid.height s j = made
  rw [made.taken_as_first]

end Layout

/-- The layout of a generation that takes the attempt with a number, against the layout from the seed
of this attempt. -/
theorem Template.laid_replay {a : Template} (haccepted : a.fault? = none)
    (halgorithm : a.algorithm = .cavern) {seed seed' : UInt32} {k : Nat}
    (hsource : Cavern.sourceOf (.ofSeed seed) k = .ofSeed seed')
    (hfault : (a.laid seed).1.fault = none) (hattempts : (a.laid seed).1.report.attempts = k + 1) :
    (a.laid seed').1.fault = none ∧
      (a.laid seed').1.report = { (a.laid seed).1.report with attempts := 1 } ∧
      (a.laid seed').1.map = { (a.laid seed).1.map with seed := seed' } ∧
      (a.laid seed').2 = (a.laid seed).2 := by
  have hretries := (Template.cavern_accepted haccepted halgorithm).retries
  have hblank : Map.blank seed' a = { Map.blank seed a with seed := seed' } := rfl
  rw [laid_cavern halgorithm] at hfault hattempts
  rw [laid_cavern halgorithm, laid_cavern halgorithm, ← hsource, hblank,
    Layout.cavern_replay hretries seed' hfault hattempts]
  exact ⟨hfault, rfl, rfl, rfl⟩

/-! ## Generations -/

/-- A generation that takes the retry with a number makes the same map as the generation from the
seed of that retry, which takes its first attempt. Only the recorded seeds differ, and in the reports
the number of attempts. -/
theorem Handover.generate_replay (h h' : Handover) (seed : UInt32) (a : Template)
    (halgorithm : a.algorithm = .cavern) (k : Nat) (hk : 1 ≤ k)
    (hok : (h.generate seed a).1 = true)
    (hattempts : (h.generate seed a).2.report.attempts = k + 1) :
    let seed' := Hash.combine₃ seed (Hash.tag "CAVERN") (UInt32.ofNat k)
    (h'.generate seed' a).1 = true ∧
      (h'.generate seed' a).2.report = { (h.generate seed a).2.report with attempts := 1 } ∧
      (h'.generate seed' a).2.map = { (h.generate seed a).2.map with seed := seed' } := by
  obtain ⟨haccepted, hfault⟩ := Handover.generate_ok_iff.mp hok
  rw [Handover.report_generate haccepted] at hattempts
  have hsource := Cavern.sourceOf_retry seed (Nat.one_le_iff_ne_zero.mp hk)
  intro seed'
  obtain ⟨hfault', hreport, hmap, hsource'⟩ :=
    Template.laid_replay haccepted halgorithm hsource hfault hattempts
  have hok' : (h'.generate seed' a).1 = true := Handover.generate_ok_iff.mpr ⟨haccepted, hfault'⟩
  refine ⟨hok', ?_, ?_⟩
  · rw [Handover.report_generate haccepted, Handover.report_generate haccepted, hreport]
  · rw [Handover.map_generate hok', Handover.map_generate hok, hmap, hsource',
      Map.populate_reseeded]

/-- A cave on the smallest map that is left as it comes out of the noise. -/
def Template.roughCave : Template :=
  { algorithm := .cavern, width := 8, height := 8, cavern := { smoothings := 0, minArea := 20 } }

/-- From seed 1 the first attempt at a rough cave is too small, and the first retry is replayed. -/
theorem Handover.generate_replay_roughCave :
    (Handover.generate {} 1 .roughCave).1 = true ∧
      (Handover.generate {} 1 .roughCave).2.report.attempts = (1 : Nat) + 1 ∧
      (Handover.generate {} (Hash.combine₃ 1 (Hash.tag "CAVERN") (UInt32.ofNat 1))
          .roughCave).2.map =
        { (Handover.generate {} 1 .roughCave).2.map with
            seed := Hash.combine₃ 1 (Hash.tag "CAVERN") (UInt32.ofNat 1) } := by
  have hlaid : (Template.roughCave.laid 1).1.fault = none ∧
      (Template.roughCave.laid 1).1.report.attempts = (1 : Nat) + 1 := by decide +kernel
  have haccepted : Template.roughCave.fault? = none := by decide
  have hok : (Handover.generate {} 1 .roughCave).1 = true :=
    Handover.generate_ok_iff.mpr ⟨haccepted, hlaid.1⟩
  have hattempts : (Handover.generate {} 1 .roughCave).2.report.attempts = (1 : Nat) + 1 := by
    rw [Handover.report_generate haccepted]
    exact hlaid.2
  obtain ⟨_, _, hmap⟩ := Handover.generate_replay {} {} 1 .roughCave rfl 1 le_rfl hok hattempts
  refine ⟨hok, hattempts, ?_⟩
  rw [hmap]

end Dungeon
