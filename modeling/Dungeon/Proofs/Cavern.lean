import Dungeon.Proofs.Automaton
import Dungeon.Proofs.Chambers
import Dungeon.Proofs.Template

/-!
# Caves

The layout of a cave against its description: attempts are caves grown from sources of their own,
the first one with a large enough region is taken, and its largest region is the floor. The rooms
that are added then only name parts of the floor.

Results:
1. `Cavern.search_cases`: a search ends with the first attempt that suffices, or with the last one.
2. `Map.foldl_addRoom`, `Map.addRooms_eq`: what adding rooms changes, and that it does not change the
   grid if they are floor already.
3. `Layout.cavern_cases`: the two ways in which the layout of a cave ends.
4. `Layout.cavern_spec`: which of them it is, and what it leaves.
-/

namespace Dungeon

section Overlay

variable {g : Grid} {width height : Int} {floor : Set Point} {q : Point}

theorem Grid.Plain.withoutFloor (h : g.Plain) : ∀ t ∈ g.withoutFloor.tiles, t = .wall := by
  intro t ht
  obtain ⟨u, hu, rfl⟩ := Array.mem_map.mp ht
  rcases h u hu with rfl | rfl <;> rfl

theorem Grid.Depicts.keepLargest (h : g.Depicts width height floor) (hq : LeadsLargest floor q) :
    g.keepLargest.1.Depicts width height (region floor q) := by
  obtain ⟨hwidth, hheight, hsize⟩ := g.keepLargest_size
  refine ⟨hsize.trans h.size, ?_, hwidth.trans h.width, hheight.trans h.height, ?_⟩
  · rw [Grid.keepLargest_eq]
    split
    · exact h.plain
    · exact (Grid.plain_of_wall h.plain.withoutFloor).carve _
  · rw [← h.floor] at hq ⊢
    exact Grid.floor_keepLargest h.full hq

/-- Tiles laid over a grid of their size are all that is seen of it. -/
theorem Grid.Depicts.overlay {base : Grid} (h : g.Depicts base.width base.height floor)
    (hbase : base.Plain) :
    (base.overlay g.tiles).floor = floor ∧ (base.overlay g.tiles).Plain ∧
      (base.tiles.size = base.width.toNat * base.height.toNat →
        (base.overlay g.tiles).Depicts base.width base.height floor) := by
  have hbounds : ∀ q, (base.overlay g.tiles).inBounds q = g.inBounds q := fun q =>
    Grid.inBounds_congr h.width.symm h.height.symm q
  have hfloor : (base.overlay g.tiles).floor = floor := by
    rw [← h.floor]
    ext q
    rw [Grid.mem_floor, Grid.mem_floor, Grid.isFloor, Grid.isFloor, Grid.tileAt, Grid.tileAt,
      hbounds]
    split
    · next hin =>
      have hlt : g.index q < g.tiles.size := by
        rw [h.size, ← h.width, ← h.height]
        exact Grid.index_lt hin
      -- Inside, an index lies in the front part, where the tiles are those laid over.
      have hindex : (base.overlay g.tiles).index q = g.index q := Grid.index_congr h.width.symm q
      rw [Array.getD_eq_getD_getElem?, Array.getD_eq_getD_getElem?, hindex, Grid.overlay,
        Array.getElem?_append_left hlt]
    · rfl
  have hplain : (base.overlay g.tiles).Plain := by
    intro t ht
    cases Array.mem_append.mp ht with
    | inl ht => exact h.plain t ht
    | inr ht =>
      obtain ⟨k, hk, rfl⟩ := Array.mem_extract_iff_getElem.mp ht
      exact hbase _ (Array.getElem_mem _)
  refine ⟨hfloor, hplain, fun hsize => ⟨?_, hplain, rfl, rfl, hfloor⟩⟩
  rw [Grid.overlay, Array.size_append, Array.size_extract, h.size, hsize]
  omega

end Overlay

/-! ## Adding rooms -/

/-- Rooms for rectangles, numbered from a number on. -/
def numbered (start : Nat) (rects : List Rect) : List Room :=
  (rects.zipIdx start).map fun (r, n) => Room.ofRect n r

/-- Adding rooms carves the grid and makes the list longer, and leaves everything else alone. -/
theorem Map.foldl_addRoom (m : Map) (rects : List Rect) :
    rects.foldl Map.addRoom m = { m with
      grid := rects.foldl Grid.carveRect m.grid
      rooms := m.rooms ++ numbered m.rooms.length rects } := by
  induction rects generalizing m with
  | nil => rw [numbered, List.zipIdx_nil, List.map_nil, List.append_nil, List.foldl_nil, List.foldl_nil]
  | cons r rest ih =>
    rw [List.foldl_cons, List.foldl_cons, ih]
    simp [Map.addRoom, Map.carveRect, numbered]

theorem Grid.foldl_carveRect_eq_self {g : Grid} {rects : List Rect}
    (h : ∀ r ∈ rects, ∀ q, r.contains q = true → q ∈ g.floor) :
    rects.foldl Grid.carveRect g = g := by
  induction rects with
  | nil => rfl
  | cons r rest ih =>
    rw [List.foldl_cons, Grid.carveRect_eq_self fun q hq _ => h r List.mem_cons_self q hq]
    exact ih fun t ht => h t (List.mem_cons_of_mem r ht)

/-- Adding rooms that are floor already does not change the grid. -/
theorem Map.addRooms_eq {m : Map} {rects : List Rect}
    (h : ∀ r ∈ rects, ∀ q, r.contains q = true → q ∈ m.grid.floor) :
    rects.foldl Map.addRoom m = { m with rooms := m.rooms ++ numbered m.rooms.length rects } := by
  rw [Map.foldl_addRoom, Grid.foldl_carveRect_eq_self h]

namespace Cavern

/-! ## Attempts -/

/-- The largest region of the cave is not empty, and large enough. -/
def Suffices (leastArea : Int) (cave : Set Point) : Prop :=
  0 < largestArea cave ∧ leastArea ≤ largestArea cave

section Attempt

variable {p : CavernParams} {width height leastArea : Int} {start : Source} {k : Nat} {q : Point}

theorem attempt_number : (attempt p width height start k).number = k := rfl

theorem attempt_area :
    (attempt p width height start k).area
      = largestArea (cave p width height (sourceOf start k)) := by
  have hgrow := grow_depicts p width height (sourceOf start k)
  rw [← hgrow.floor]
  exact Grid.keepLargest_area _

theorem attempt_depicts (h : LeadsLargest (cave p width height (sourceOf start k)) q) :
    (attempt p width height start k).grid.Depicts width height
      (region (cave p width height (sourceOf start k)) q) :=
  (grow_depicts p width height (sourceOf start k)).keepLargest h

theorem attempt_suffices :
    (attempt p width height start k).suffices leastArea = true ↔
      Suffices leastArea (cave p width height (sourceOf start k)) := by
  rw [Attempt.suffices, decide_eq_true_eq, attempt_area, Suffices]

/-- A cave that suffices has a first point in a largest region. -/
theorem exists_leadsLargest (h : Suffices leastArea (cave p width height start)) :
    ∃ q, LeadsLargest (cave p width height start) q := by
  have hfloor := (grow_depicts p width height start).floor
  rw [← hfloor] at h ⊢
  have hne : ((grow p width height).run start).1.floor.Nonempty := by
    rw [Set.nonempty_iff_ne_empty]
    intro hempty
    have hpos := h.1
    rw [hempty, largestArea_empty] at hpos
    cases hpos
  obtain ⟨q, hq, _⟩ := Grid.exists_leading hne
  exact ⟨q, hq⟩

end Attempt

/-! ## The search -/

/-- A search takes the first attempt that suffices, or it makes all of them in vain. -/
theorem search_cases (make : Nat → Attempt) (leastArea : Int) (n number : Nat)
    (last : Option Attempt) (best : Nat) :
    (∃ k < n, search make leastArea n number last best = .found (make (number + k)) ∧
        (make (number + k)).suffices leastArea = true ∧
        ∀ j < k, (make (number + j)).suffices leastArea = false) ∨
      (search make leastArea n number last best = .exhausted
          (if n = 0 then last else some (make (number + (n - 1))))
          (max best ((Finset.range n).sup fun k => (make (number + k)).area)) ∧
        ∀ k < n, (make (number + k)).suffices leastArea = false) := by
  induction n generalizing number last best with
  | zero =>
    refine .inr ⟨?_, fun k hk => by cases hk⟩
    rw [search, if_pos rfl, Finset.range_zero, Finset.sup_empty, bot_eq_zero, Nat.max_zero]
  | succ n ih =>
    rw [search]
    cases hsuffices : (make number).suffices leastArea with
    | true =>
      rw [if_pos rfl]
      exact .inl ⟨0, Nat.succ_pos n, rfl, hsuffices, fun j hj => by cases hj⟩
    | false =>
      rw [if_neg Bool.false_ne_true]
      -- The search goes on with the next number, so its attempts are the later ones of this one.
      have hshift : ∀ k, number + 1 + k = number + (k + 1) := fun k => by omega
      rcases ih (number + 1) (some (make number)) (max best (make number).area) with
        ⟨k, hk, hfound, hmade, hbefore⟩ | ⟨hexhausted, hall⟩
      · rw [hshift] at hfound hmade
        refine .inl ⟨k + 1, by omega, hfound, hmade, fun j hj => ?_⟩
        cases j with
        | zero => exact hsuffices
        | succ j =>
          rw [← hshift]
          exact hbefore j (by omega)
      · refine .inr ⟨?_, fun k hk => ?_⟩
        · rw [hexhausted, Finset.range_add_one', Finset.sup_insert, Finset.sup_map]
          congr 1
          · rw [if_neg (Nat.succ_ne_zero n)]
            split
            · next hzero => rw [hzero]; rfl
            · next hpos =>
              rw [hshift, Nat.sub_add_cancel (by omega), Nat.add_sub_cancel]
          · rw [max_assoc]
            congr 2
            exact Finset.sup_congr rfl fun k _ => by rw [hshift]; rfl
        · cases k with
          | zero => exact hsuffices
          | succ k =>
            rw [← hshift]
            exact hall k (by omega)

end Cavern

/-! ## The layout -/

/-- What the layout leaves when it takes an attempt. -/
def Cavern.Attempt.taken (a : Cavern.Attempt) (p : CavernParams) (m : Map) (report : Report) :
    LayoutResult :=
  { map := (Chambers.ofGrid a.grid p).foldl Map.addRoom (a.record m report).1,
    report := (a.record m report).2 }

section Layout

variable {p : CavernParams} {m : Map} {report : Report} {s : Source}

open Cavern

theorem Layout.cavern_run (p : CavernParams) (m : Map) (report : Report) (s : Source) :
    (Layout.cavern p m report).run s =
      ((search (attempt p m.grid.width m.grid.height s) (p.leastArea m.grid.width m.grid.height)
        (p.maxRetries + 1).toNat 0 none 0).conclude p m report).run s := by
  rw [Layout.cavern, StateT.run_bind, StateT.run_get, pure_bind]

theorem Cavern.Attempt.taken_fault (a : Cavern.Attempt) : (a.taken p m report).fault = none := rfl

theorem Cavern.Attempt.taken_report (a : Cavern.Attempt) :
    (a.taken p m report).report = { report with attempts := a.number + 1 } := rfl

theorem Cavern.Attempt.taken_map (a : Cavern.Attempt) :
    (a.taken p m report).map =
      (Chambers.ofGrid a.grid p).foldl Map.addRoom (a.record m report).1 := rfl

theorem Cavern.conclude_found (a : Cavern.Attempt) :
    ((Cavern.Search.found a).conclude p m report).run s = (a.taken p m report, a.source) := rfl

theorem Cavern.conclude_exhausted (a : Cavern.Attempt) (best : Nat) :
    (((Cavern.Search.exhausted (some a) best).conclude p m report).run s).1 =
      .failed (a.record m report).1 (a.record m report).2
        (.noCave (p.leastArea m.grid.width m.grid.height) (p.maxRetries + 1) best) := rfl

/-- The map is a cave with the floor, and its rooms are chambers of it. Everything else is as on the
base. -/
structure IsCave (base : Map) (floor : Set Point) (laid : Map) : Prop where
  width : laid.grid.width = base.grid.width
  height : laid.grid.height = base.grid.height
  floor : laid.grid.floor = floor
  plain : laid.grid.Plain
  size : base.grid.tiles.size = base.grid.width.toNat * base.grid.height.toNat →
    laid.grid.tiles.size = base.grid.tiles.size
  chambers : ∃ chambers, chambers ≠ [] ∧ laid.rooms = numbered 0 chambers ∧
    ∀ r ∈ chambers, Chambers.Filled laid.grid.isFloor r
  corridors : laid.corridors = []
  seed : laid.seed = base.seed
  area : laid.area = base.area

/-- Recording a cave and adding its chambers makes a map that is the cave. -/
theorem Cavern.isCave_record {a : Cavern.Attempt} {floor : Set Point}
    (h : a.grid.Depicts m.grid.width m.grid.height floor) (hne : floor.Nonempty) :
    IsCave m floor ((Chambers.ofGrid a.grid p).foldl Map.addRoom (a.record m report).1) := by
  have hbase : a.grid.Depicts m.grid.filled.width m.grid.filled.height floor := h
  obtain ⟨hfloor, hplain, hdepicts⟩ := hbase.overlay m.grid.plain_filled
  have hfilled : ∀ r ∈ Chambers.ofGrid a.grid p, ∀ q, r.contains q = true →
      q ∈ (a.record m report).1.grid.floor := by
    intro r hr q hq
    have hq' := (Chambers.ofGrid_filled hr).passes q hq
    exact (hfloor.trans h.floor.symm) ▸ hq'
  rw [Map.addRooms_eq hfilled]
  have hrooms : (a.record m report).1.rooms = [] := rfl
  refine ⟨rfl, rfl, hfloor, hplain, fun hsize => ?_, ⟨Chambers.ofGrid a.grid p, ?_, ?_, ?_⟩, rfl,
    rfl, rfl⟩
  · rw [Grid.size_tiles_filled] at hdepicts
    exact (hdepicts hsize).size.trans hsize.symm
  · exact Chambers.ofGrid_ne_nil (h.floor.symm ▸ hne)
  · rw [hrooms, List.nil_append, List.length_nil]
  · intro r hr
    have hr' := Chambers.ofGrid_filled hr
    exact ⟨hr'.width, hr'.height, hfilled r hr⟩

/-- A layout ends with the first attempt that suffices, or fails after the last one. -/
theorem Layout.cavern_cases (m : Map) (report : Report) (s : Source) (hretries : 0 ≤ p.maxRetries) :
    let leastArea := p.leastArea m.grid.width m.grid.height
    let caveOf (k : Nat) := cave p m.grid.width m.grid.height (sourceOf s k)
    let laid := ((Layout.cavern p m report).run s).1
    (∃ k : Nat, (k : Int) ≤ p.maxRetries ∧ Suffices leastArea (caveOf k) ∧
        (∀ j < k, ¬ Suffices leastArea (caveOf j)) ∧ laid.fault = none ∧
        laid.report = { report with attempts := k + 1 } ∧
        ∃ q, LeadsLargest (caveOf k) q ∧ IsCave m (region (caveOf k) q) laid.map) ∨
      (∀ k : Nat, (k : Int) ≤ p.maxRetries → ¬ Suffices leastArea (caveOf k)) ∧
        laid.fault = some (.noCave leastArea (p.maxRetries + 1)
          ((Finset.range (p.maxRetries.toNat + 1)).sup fun k => largestArea (caveOf k))) ∧
        laid.report =
          { report with attempts := p.maxRetries + 1, failure := some .disconnectedMap } := by
  intro leastArea caveOf laid
  have hbudget : (p.maxRetries + 1).toNat = p.maxRetries.toNat + 1 := by omega
  have hnot : ∀ k, (attempt p m.grid.width m.grid.height s (0 + k)).suffices leastArea = false →
      ¬ Suffices leastArea (caveOf k) := by
    intro k hk hsuffices
    rw [Nat.zero_add, attempt_suffices.mpr hsuffices] at hk
    cases hk
  have hlaid : laid = (((search (attempt p m.grid.width m.grid.height s) leastArea
      (p.maxRetries + 1).toNat 0 none 0).conclude p m report).run s).1 := by
    rw [← Layout.cavern_run]
  rcases Cavern.search_cases (attempt p m.grid.width m.grid.height s) leastArea
      (p.maxRetries + 1).toNat 0 none 0 with
    ⟨k, hk, hfound, hsuffices, hbefore⟩ | ⟨hexhausted, hall⟩
  · left
    rw [hfound, Nat.zero_add, conclude_found] at hlaid
    rw [Nat.zero_add] at hsuffices
    have hsuffices := attempt_suffices.mp hsuffices
    obtain ⟨q, hq⟩ := exists_leadsLargest hsuffices
    have hdepicts : (attempt p m.grid.width m.grid.height s k).grid.Depicts m.grid.width
        m.grid.height (region (caveOf k) q) := attempt_depicts hq
    refine ⟨k, by omega, hsuffices, fun j hj => hnot j (hbefore j hj), ?_, ?_, q, hq, ?_⟩
    · rw [hlaid, Attempt.taken_fault]
    · rw [hlaid, Attempt.taken_report, attempt_number]
    · rw [hlaid, Attempt.taken_map]
      exact isCave_record hdepicts ⟨q, mem_region_self hq.mem⟩
  · right
    rw [hexhausted, if_neg (by omega), Cavern.conclude_exhausted, hbudget] at hlaid
    refine ⟨fun k hk => hnot k (hall k (by omega)), ?_, ?_⟩
    · rw [hlaid, LayoutResult.failed]
      simp only [Nat.zero_max, Nat.zero_add, attempt_area]
      rfl
    · rw [hlaid]
      simp only [LayoutResult.failed, Cavern.Attempt.record, attempt_number, Fault.failure,
        Nat.zero_add, Nat.add_sub_cancel, Int.toNat_of_nonneg hretries]

end Layout

/-- The layout of a cave succeeds if and only if some attempt gives a cave whose largest region is
large enough. The first attempt draws from the source as it is, and each retry from a source for the
mix of the seed, the word for caves and the number of the retry. The first attempt that suffices is
the one that is taken: its number is reported, there are no corridors, and the floor is its largest
region, of several the one with the first point row by row. Otherwise all attempts are made, and the
fault names the greatest area among them. -/
theorem Layout.cavern_spec (a : Template) (hrules : ∀ rule ∈ a.cavernRules, rule = none) (m : Map)
    (report : Report) (s : Source) :
    let p := a.cavern
    let leastArea := p.leastArea m.grid.width m.grid.height
    let stream (k : Nat) := if k = 0 then s
      else Source.ofSeed (Hash.combine₃ s.seed (Hash.tag "CAVERN") (UInt32.ofNat k))
    let caveOf (k : Nat) := Cavern.cave p m.grid.width m.grid.height (stream k)
    let laid := ((Layout.cavern p m report).run s).1
    (laid.fault = none ↔
        ∃ k : Nat, (k : Int) ≤ p.maxRetries ∧ Cavern.Suffices leastArea (caveOf k)) ∧
      (∀ k : Nat, (k : Int) ≤ p.maxRetries → Cavern.Suffices leastArea (caveOf k) →
        (∀ j < k, ¬ Cavern.Suffices leastArea (caveOf j)) →
        laid.report = { report with attempts := k + 1 } ∧ laid.map.corridors = [] ∧
          ∃ q, LeadsLargest (caveOf k) q ∧ laid.map.grid.floor = region (caveOf k) q) ∧
      ((∀ k : Nat, (k : Int) ≤ p.maxRetries → ¬ Cavern.Suffices leastArea (caveOf k)) →
        laid.fault = some (.noCave leastArea (p.maxRetries + 1)
            ((Finset.range (p.maxRetries.toNat + 1)).sup fun k => largestArea (caveOf k))) ∧
          laid.report =
            { report with attempts := p.maxRetries + 1, failure := some .disconnectedMap }) := by
  have hsound := Template.cavernRules_accepted hrules
  intro p leastArea stream caveOf laid
  rcases Layout.cavern_cases m report s hsound.retries with
    ⟨k, hk, hsuffices, hbefore, hfault, hreport, q, hq, hcave⟩ | ⟨hnone, hfault, hreport⟩
  · refine ⟨iff_of_true hfault ⟨k, hk, hsuffices⟩, fun j _ hsuffices' hbefore' => ?_,
      fun hnone => ?_⟩
    · have hjk : j = k := by
        rcases Nat.lt_trichotomy j k with hlt | heq | hgt
        · exact absurd hsuffices' (hbefore j hlt)
        · exact heq
        · exact absurd hsuffices (hbefore' k hgt)
      subst hjk
      exact ⟨hreport, hcave.corridors, q, hq, hcave.floor⟩
    · exact absurd hsuffices (hnone k hk)
  · refine ⟨iff_of_false ?_ ?_, fun k hk hsuffices => ?_, fun _ => ⟨hfault, hreport⟩⟩
    · rw [hfault]
      exact Option.some_ne_none _
    · rintro ⟨k, hk, hsuffices⟩
      exact hnone k hk hsuffices
    · exact absurd hsuffices (hnone k hk)

/-- A cave that is left as it comes out of the noise, on the smallest map, from seed 1. The first
attempt is too small, and the first retry is taken. More than all tiles of the map are in vain. -/
theorem Layout.cavern_spec_rough :
    let a : Template := { cavern := { smoothings := 0, minArea := 20 } }
    let b : Template := { cavern := { smoothings := 0, minArea := 65, maxRetries := 2 } }
    let m := Map.ofSize 8 8
    let s := Source.ofSeed 1
    let first := Cavern.cave a.cavern 8 8 s
    let retry := Cavern.cave a.cavern 8 8
      (.ofSeed (Hash.combine₃ s.seed (Hash.tag "CAVERN") (UInt32.ofNat 1)))
    (((Layout.cavern a.cavern m {}).run s).1.fault = none ∧
        ((Layout.cavern a.cavern m {}).run s).1.report.attempts = 2 ∧
        ¬ Cavern.Suffices 20 first ∧ Cavern.Suffices 20 retry ∧
        ∃ q, LeadsLargest retry q ∧
          ((Layout.cavern a.cavern m {}).run s).1.map.grid.floor = region retry q) ∧
      ((Layout.cavern b.cavern m {}).run s).1.report =
        { attempts := 3, failure := some .disconnectedMap } := by
  intro a b m s first retry
  have hfault : ((Layout.cavern a.cavern m {}).run s).1.fault = none := by decide +kernel
  have hattempts : ((Layout.cavern a.cavern m {}).run s).1.report.attempts = 2 := by
    decide +kernel
  have hvain : ((Layout.cavern b.cavern m {}).run s).1.fault ≠ none := by decide +kernel
  obtain ⟨hfound, htaken, -⟩ := Layout.cavern_spec a (by decide) m {} s
  obtain ⟨hfound', -, hfailed⟩ := Layout.cavern_spec b (by decide) m {} s
  refine ⟨⟨hfault, hattempts, ?_⟩, ?_⟩
  · classical
    obtain ⟨k, ⟨hk, hsuffices⟩, hbefore⟩ := Nat.findX (hfound.mp hfault)
    have hleast := fun j hj hsuffices' =>
      hbefore j hj ⟨(Int.ofNat_le.mpr (Nat.le_of_lt hj)).trans hk, hsuffices'⟩
    obtain ⟨hreport, -, q, hq, hfloor⟩ := htaken k hk hsuffices hleast
    -- The number of attempts tells which one was taken.
    obtain rfl : k = 1 := by
      have hcount := hattempts.symm.trans (congrArg Report.attempts hreport)
      dsimp only at hcount
      omega
    exact ⟨hleast 0 Nat.zero_lt_one, hsuffices, q, hq, hfloor⟩
  · exact (hfailed fun k hk hsuffices => hvain (hfound'.mpr ⟨k, hk, hsuffices⟩)).2

end Dungeon
