import Dungeon.Editor
import Dungeon.Proofs.Generate

/-!
# Maps that are changed step by step

A map holds its plan twice, as lists of rooms and corridors and as floor on its grid. Here a map is
changed by one operation after another, in any order and with any rectangles: they may be empty,
turned inside out or partly off the grid. The lists and the grid never come to disagree, since what
lies off the grid is not carved, nothing but clearing takes floor away, and clearing drops the lists
along with it.

Results:
1. `Map.Coherent.carve`, `Map.Coherent.addRoom`, `Map.Coherent.addCorridor`,
   `Map.Coherent.populate`: what one operation keeps.
2. `Template.laid_coherent`: what a layout leaves is coherent again, whatever was there before.
3. `Map.Change.coherent`: every change keeps a map coherent.
4. `Map.changes_coherent`: so does every run of changes.
5. `Editor.applyAll_coherent`: so does every run of an editor that makes no other edits.
-/

namespace Dungeon

namespace Map

/-- The tiles are wall and floor, the rooms have the numbers of their places, the corridors join
rooms from center to center, and the part of the plan that lies on the grid is floor. -/
structure Coherent (m : Map) : Prop where
  width : 0 < m.grid.width
  height : 0 < m.grid.height
  size : m.grid.tiles.size = m.grid.width.toNat * m.grid.height.toNat
  plain : m.grid.Plain
  number : Room.Numbered m.rooms
  between : ∀ c ∈ m.corridors, ∃ a ∈ m.rooms, ∃ b ∈ m.rooms, ∃ bend, c = Corridor.between bend a b
  covered : ∀ p ∈ Grid.footprint m.rooms m.corridors, m.grid.inBounds p = true → p ∈ m.grid.floor

/-! ## Operations -/

namespace Coherent

variable {m : Map}

theorem full (h : m.Coherent) : m.grid.Full := h.size.ge

theorem ofSize {width height : Int} (hwidth : 0 < width) (hheight : 0 < height) :
    (Map.ofSize width height).Coherent where
  width := hwidth
  height := hheight
  size := Grid.size_tiles_walls width height
  plain := Grid.plain_of_wall fun _ ht => (Array.mem_replicate.mp ht).2
  number := fun n r hr => by cases hr
  between := fun c hc => by cases hc
  covered := fun p hp => by rcases hp with ⟨r, hr, _⟩ | ⟨c, hc, _⟩ <;> contradiction

/-- Clearing takes the floor away, and with it everything that had to be floor. -/
theorem cleared (h : m.Coherent) : m.cleared.Coherent where
  width := h.width
  height := h.height
  size := (Grid.size_tiles_filled m.grid).trans h.size
  plain := m.grid.plain_filled
  number := fun n r hr => by cases hr
  between := fun c hc => by cases hc
  covered := fun p hp => by rcases hp with ⟨r, hr, _⟩ | ⟨c, hc, _⟩ <;> contradiction

theorem carve (h : m.Coherent) (points : List Point) :
    ({ m with grid := m.grid.carve points } : Map).Coherent where
  width := by rw [Grid.carve_width]; exact h.width
  height := by rw [Grid.carve_height]; exact h.height
  size := by rw [Grid.size_tiles_carve, Grid.carve_width, Grid.carve_height]; exact h.size
  plain := h.plain.carve points
  number := h.number
  between := h.between
  covered := fun p hp hin => by
    rw [Grid.inBounds_carve] at hin
    rw [Grid.floor_carve h.full]
    exact .inl (h.covered p hp hin)

theorem addRoom (h : m.Coherent) (r : Rect) : (m.addRoom r).Coherent where
  width := (h.carve _).width
  height := (h.carve _).height
  size := (h.carve _).size
  plain := (h.carve _).plain
  number := h.number.concat rfl
  between := fun c hc => by
    obtain ⟨a, ha, b, hb, bend, rfl⟩ := h.between c hc
    exact ⟨a, List.mem_append_left _ ha, b, List.mem_append_left _ hb, bend, rfl⟩
  covered := fun p hp hin => by
    have hin' : m.grid.inBounds p = true := (Grid.inBounds_carve m.grid _ p).symm.trans hin
    show p ∈ (m.grid.carveRect r).floor
    rw [Grid.floor_carveRect h.full]
    rcases hp with ⟨t, ht, hp⟩ | ⟨c, hc, hp⟩
    · cases List.mem_append.mp ht with
      | inl ht => exact .inl (h.covered p (.inl ⟨t, ht, hp⟩) hin')
      | inr ht =>
        rw [List.mem_singleton.mp ht] at hp
        exact .inr ⟨hin', hp⟩
    · exact .inl (h.covered p (.inr ⟨c, hc, hp⟩) hin')

theorem addCorridor (h : m.Coherent) {a b : Room} (ha : a ∈ m.rooms) (hb : b ∈ m.rooms)
    (bend : Bend) : (m.addCorridor (.between bend a b)).Coherent where
  width := (h.carve _).width
  height := (h.carve _).height
  size := (h.carve _).size
  plain := (h.carve _).plain
  number := h.number
  between := fun c hc => by
    cases List.mem_append.mp hc with
    | inl hc => exact h.between c hc
    | inr hc => exact ⟨a, ha, b, hb, bend, List.mem_singleton.mp hc⟩
  covered := fun p hp hin => by
    have hin' : m.grid.inBounds p = true := (Grid.inBounds_carve m.grid _ p).symm.trans hin
    show p ∈ (m.grid.carve (Corridor.between bend a b).path).floor
    rw [Grid.floor_carve h.full]
    rcases hp with ⟨r, hr, hp⟩ | ⟨c, hc, hp⟩
    · exact .inl (h.covered p (.inl ⟨r, hr, hp⟩) hin')
    · cases List.mem_append.mp hc with
      | inl hc => exact .inl (h.covered p (.inr ⟨c, hc, hp⟩) hin')
      | inr hc =>
        rw [List.mem_singleton.mp hc] at hp
        exact .inr ⟨hin', hp⟩

/-- Neither the numbers of rooms nor where they lie depend on what they hold, and corridors and
floor go by these alone. -/
theorem of_bare (h : m.Coherent) {rooms : List Room}
    (hbare : rooms.map Room.bare = m.rooms.map Room.bare) : ({ m with rooms } : Map).Coherent where
  width := h.width
  height := h.height
  size := h.size
  plain := h.plain
  number := h.number.of_bare hbare
  between := fun c hc => by
    obtain ⟨a, ha, b, hb, bend, rfl⟩ := h.between c hc
    obtain ⟨a', ha', hid, hrect⟩ := exists_bare hbare.symm ha
    obtain ⟨b', hb', hid', hrect'⟩ := exists_bare hbare.symm hb
    refine ⟨a', ha', b', hb', bend, ?_⟩
    rw [Corridor.between, Corridor.between, hid, hid', hrect, hrect']
  covered := fun p hp hin => by
    rw [footprint_bare hbare] at hp
    exact h.covered p hp hin

theorem populate (h : m.Coherent) (a : Template) (s : Source) :
    ((m.populate a).run s).1.Coherent := by
  obtain ⟨rooms, hpopulated, hbare, _⟩ := m.populate_ensures a s
  rw [hpopulated]
  exact h.of_bare hbare

end Coherent
end Map

/-! ## Layouts -/

section Layouts

variable {seed : UInt32} {a : Template} {m : Map}

theorem Map.Coherent.of_plan {minRoom border padding : Int} {rooms : List Room}
    {corridors : List Corridor} (hblank : Blank a m)
    (h : WellPlanned m.grid.width m.grid.height minRoom border padding rooms corridors) :
    (m.ofPlan rooms corridors).Coherent := by
  have hfull : m.grid.Full := hblank.size.ge
  obtain ⟨hcarved, hcarved', hsize, hfloor⟩ := Grid.carvePlan_spec hfull.filled rooms corridors
  have hwidth : (m.ofPlan rooms corridors).grid.width = m.grid.width := hcarved
  have hheight : (m.ofPlan rooms corridors).grid.height = m.grid.height := hcarved'
  refine ⟨?_, ?_, ?_, m.grid.plain_filled.carvePlan rooms corridors, h.number, h.between, ?_⟩
  · exact hwidth.symm ▸ hblank.width
  · exact hheight.symm ▸ hblank.height
  · rw [hwidth, hheight, ← hblank.size]
    exact hsize.trans (Grid.size_tiles_filled m.grid)
  · intro p hp hin
    have hin' : m.grid.filled.inBounds p = true :=
      (Grid.inBounds_congr hcarved hcarved' p).symm.trans hin
    exact hfloor ▸ .inr ⟨hin', hp⟩

/-- A map without corridors that is laid out well. -/
theorem Map.Coherent.of_wellLaid (h : WellLaid a m) (hnone : m.corridors = []) : m.Coherent where
  width := h.width
  height := h.height
  size := h.size
  plain := h.plain
  number := h.number
  between := fun c hc => by
    rw [hnone] at hc
    cases hc
  covered := fun p hp _ => by
    rw [hnone] at hp
    rcases hp with ⟨r, hr, hp⟩ | ⟨c, hc, _⟩
    · exact h.rooms r hr p hp
    · cases hc

/-- Whatever the layout, what it leaves is coherent unless it fails. -/
theorem Template.laid_coherent (haccepted : a.fault? = none)
    (hfault : (a.laid seed).1.fault = none) : (a.laid seed).1.map.Coherent := by
  have hblank : Blank a (Map.blank seed a) := Map.blank_spec haccepted
  rcases Template.algorithm_accepted haccepted with halgorithm | halgorithm | halgorithm
  · rw [Template.laid_partition halgorithm] at hfault ⊢
    obtain ⟨rooms, corridors, hplan, hlaid⟩ :=
      Layout.partition_ensures (m := Map.blank seed a) {}
        (Template.partition_accepted haccepted halgorithm) (.ofSeed seed)
    rw [hlaid] at hfault ⊢
    split at hfault
    · cases hfault
    · next hfew =>
      rw [if_neg hfew]
      exact .of_plan hblank hplan
  · rw [Template.laid_cavern halgorithm] at hfault ⊢
    rcases Layout.cavern_cases (Map.blank seed a) {} (.ofSeed seed)
        (Template.cavern_accepted haccepted halgorithm).retries with
      ⟨k, _, _, _, _, _, q, _, hcave⟩ | ⟨_, hfailed, _⟩
    · exact .of_wellLaid (.of_cave hblank halgorithm hcave) hcave.corridors
    · rw [hfailed] at hfault
      cases hfault
  · rw [Template.laid, Layout.run, halgorithm]
    obtain ⟨rooms, corridors, hplan, hlaid⟩ :=
      Layout.scatter_ensures (m := Map.blank seed a) {}
        (Template.scatter_accepted haccepted halgorithm) (.ofSeed seed)
    rw [hlaid]
    exact .of_plan hblank hplan

end Layouts

/-! ## Runs -/

namespace Map

/-- One change to a map. Rectangles, templates and random sources may be any. -/
inductive Change : Map → Map → Prop
  | clear (m : Map) : Change m m.cleared
  | carveRect (m : Map) (r : Rect) : Change m (m.carveRect r)
  | addRoom (m : Map) (r : Rect) : Change m (m.addRoom r)
  /-- Joins two rooms of the map, or one with itself, by a corridor with a bend that is drawn. -/
  | connect {m : Map} {a b : Room} (ha : a ∈ m.rooms) (hb : b ∈ m.rooms) (s : Source) :
      Change m (m.addCorridor ((Corridor.draw a b).run s).1)
  | populate (m : Map) (a : Template) (s : Source) : Change m ((m.populate a).run s).1
  /-- Generates into what is handed over, whether that succeeds or fails. -/
  | generate (h : Handover) (seed : UInt32) (a : Template) :
      Change h.map (h.generate seed a).2.map

theorem Change.coherent {m m' : Map} (step : Change m m') (h : m.Coherent) : m'.Coherent := by
  cases step with
  | clear => exact h.cleared
  | carveRect _ r => exact h.carve _
  | addRoom _ r => exact h.addRoom r
  | @connect _ a b ha hb s =>
    obtain ⟨bend, hbetween⟩ := Corridor.draw_ensures a b s
    rw [hbetween]
    exact h.addCorridor ha hb bend
  | populate _ a s => exact h.populate a s
  | generate before seed a =>
    cases hok : (before.generate seed a).1 with
    | false =>
      rw [Handover.map_generate_failed hok]
      exact h
    | true =>
      obtain ⟨haccepted, hfault⟩ := Handover.generate_ok_iff.mp hok
      rw [Handover.map_generate hok]
      exact (Template.laid_coherent haccepted hfault).populate a _

/-- A run of changes keeps a map coherent. -/
theorem Coherent.run {m m' : Map} (h : m.Coherent) (run : Relation.ReflTransGen Change m m') :
    m'.Coherent := by
  induction run with
  | refl => exact h
  | tail _ step ih => exact step.coherent ih

/-- A corridor of a coherent map runs from the center of the room it names first to that of the room
it names second. -/
theorem Coherent.path_between {m : Map} (h : m.Coherent) {c : Corridor} (hc : c ∈ m.corridors) :
    ∃ a b, (m.rooms[c.roomA.toNat]? = some a ∧ a.id = c.roomA) ∧
      (m.rooms[c.roomB.toNat]? = some b ∧ b.id = c.roomB) ∧
      c.path.head? = some a.center ∧ c.path.getLast? = some b.center ∧ Walks c.path := by
  obtain ⟨a, ha, b, hb, bend, rfl⟩ := h.between c hc
  exact ⟨a, b, ⟨h.number.getElem?_id ha, rfl⟩, ⟨h.number.getElem?_id hb, rfl⟩,
    bend.head?_path _ _, bend.getLast?_path _ _, bend.path_walks _ _⟩

/-- However a map of wall is changed, at every point of the run it has a tile for each point of its
grid, all of them wall or floor; its rooms have the numbers of their places; what its rooms and
corridors cover of the grid is floor; and its corridors run from center to center of the rooms they
name. -/
theorem changes_coherent {width height : Int} (hwidth : 0 < width) (hheight : 0 < height) {m : Map}
    (run : Relation.ReflTransGen Change (.ofSize width height) m) :
    (m.grid.tiles.size : Int) = m.grid.width * m.grid.height ∧
      (∀ t ∈ m.grid.tiles, t = .wall ∨ t = .floor) ∧
      (∀ (n : Nat) (r : Room), m.rooms[n]? = some r → r.id = n) ∧
      (∀ p, m.grid.inBounds p = true →
        ((∃ r ∈ m.rooms, r.contains p = true) ∨ ∃ c ∈ m.corridors, p ∈ c.path) →
          m.grid.tileAt p = .floor) ∧
      ∀ c ∈ m.corridors, ∃ a b,
        (m.rooms[c.roomA.toNat]? = some a ∧ a.id = c.roomA) ∧
          (m.rooms[c.roomB.toNat]? = some b ∧ b.id = c.roomB) ∧
          c.path.head? = some a.center ∧ c.path.getLast? = some b.center ∧ Walks c.path := by
  have h : m.Coherent := (Coherent.ofSize hwidth hheight).run run
  refine ⟨?_, h.plain, h.number, fun p hin hp => ?_, fun c hc => h.path_between hc⟩
  · rw [h.size, Nat.cast_mul, Int.toNat_of_nonneg h.width.le, Int.toNat_of_nonneg h.height.le]
  · exact Grid.tileAt_of_mem_floor (h.covered p hp hin)

/-- One room partly and one wholly off the grid, the second turned inside out, and a corridor
between them. Both of its ends are off the grid, and what lies on the grid is floor. -/
theorem changes_coherent_offGrid :
    let first := Room.ofRect 0 ⟨-3, -2, 5, 4⟩
    let second := Room.ofRect 1 ⟨6, 9, 4, -3⟩
    let c := ((Corridor.draw first second).run (.ofSeed 7)).1
    let m := (((ofSize 8 8).addRoom first.toRect).addRoom second.toRect).addCorridor c
    (0 : Int) < 8 ∧ Relation.ReflTransGen Change (.ofSize 8 8) m ∧
      first.center = ⟨-1, 0⟩ ∧ second.center = ⟨8, 8⟩ ∧
      (m.grid.tiles.size : Int) = m.grid.width * m.grid.height ∧
      ∀ p, m.grid.inBounds p = true → p ∈ c.path → m.grid.tileAt p = .floor := by
  intro first second c m
  have hsize : (0 : Int) < 8 := by decide
  have hrooms : Relation.ReflTransGen Change (.ofSize 8 8)
      (((ofSize 8 8).addRoom first.toRect).addRoom second.toRect) :=
    .tail (.tail .refl (.addRoom _ _)) (.addRoom _ _)
  have hrun : Relation.ReflTransGen Change (.ofSize 8 8) m :=
    hrooms.tail (.connect (List.mem_cons_self) (List.mem_cons_of_mem _ List.mem_cons_self) _)
  obtain ⟨htiles, _, _, hcovered, _⟩ := changes_coherent hsize hsize hrun
  refine ⟨hsize, hrun, rfl, rfl, htiles, fun p hin hp => hcovered p hin (.inr ⟨c, ?_, hp⟩)⟩
  exact List.mem_cons_self

end Map

/-! ## Editors -/

/-- The edits that change neither the lists nor the grid alone. -/
def Edit.KeepsPlan : Edit → Prop
  | .start width height => 0 < width ∧ 0 < height
  | .seed _ | .area _ | .reseed _ | .save => True
  | .clear | .carveRect _ | .carvePath _ | .addRoom _ | .connect _ _ | .populate => True
  | .generate _ _ => True
  | _ => False

namespace Editor

variable {e : Editor}

theorem map_generate (e : Editor) (seed : UInt32) (a : Template) :
    (e.generate seed a).map = (Handover.generate { map := e.map } seed a).2.map := by
  unfold generate Handover.generate
  rcases Dungeon.generate seed a with ⟨fault | m, report⟩ <;> rfl

theorem connect_coherent (h : e.map.Coherent) (first second : Nat) :
    (e.connect first second).map.Coherent := by
  unfold connect
  split
  · next a b ha hb =>
    have ha : a ∈ e.map.rooms := List.mem_of_getElem? ha
    have hb : b ∈ e.map.rooms := List.mem_of_getElem? hb
    exact (Map.Change.connect ha hb e.source).coherent h
  · exact h

theorem apply_coherent (h : e.map.Coherent) {edit : Edit} (hkeeps : edit.KeepsPlan) :
    (e.apply edit).map.Coherent := by
  cases edit with
  | start width height => exact .ofSize hkeeps.1 hkeeps.2
  | seed | area =>
    exact ⟨h.width, h.height, h.size, h.plain, h.number, h.between, h.covered⟩
  | reseed | save => exact h
  | clear => exact h.cleared
  | carveRect r => exact h.carve _
  | carvePath path => exact h.carve path
  | addRoom r => exact h.addRoom r
  | connect first second => exact connect_coherent h first second
  | populate => exact h.populate e.map.area e.source
  | generate seed a =>
    show (e.generate seed a).map.Coherent
    rw [map_generate]
    exact (Map.Change.generate { map := e.map } seed a).coherent h
  | putTile | recordRoom | dropLastRoom | replaceRoom | recordCorridor | recordSize | keepLargest
  | layOut => cases hkeeps

/-- An editor that makes only such edits, in whatever order, has a coherent map all the time. -/
theorem applyAll_coherent (h : e.map.Coherent) {edits : List Edit}
    (hkeep : ∀ edit ∈ edits, edit.KeepsPlan) : (e.applyAll edits).map.Coherent := by
  unfold applyAll
  induction edits generalizing e with
  | nil => exact h
  | cons edit rest ih =>
    obtain ⟨hkeeps, hrest⟩ := List.forall_mem_cons.mp hkeep
    exact ih (apply_coherent h hkeeps) hrest

end Editor
end Dungeon
