import Dungeon.Proofs.Rooms

/-!
# What rooms hold by their roles

Populating a map empties its rooms before anything is put into them, so what was in them before is
forgotten. Then the role of a room says what it gets: the lair has its guard and its hoard, the
entrance stays empty, and only the other rooms ask the densities of the template.

Results:
1. `Room.RolesByPlace.isSpawn_iff`, `Room.RolesByPlace.isBoss_iff`: which rooms are entrance and
   lair. `Room.RolesByPlace.exists_both_iff`: when one room is both.
2. `Map.populate_furnished`: what these hold, whatever is drawn.
3. `Map.populate_congr`: populating forgets what rooms held.
4. `Map.populate_exact`: all of this about one run, and that nothing else of the map changes.
-/

namespace Dungeon

/-! ## Entrance and lair -/

namespace Room.RolesByPlace

variable {rooms : List Room} {i : Nat} {r : Room}

theorem isSpawn_iff (h : RolesByPlace rooms) (hr : rooms[i]? = some r) :
    r.isSpawn = true ↔ i = 0 := by
  rw [isSpawn, h i r hr, kindAt]
  split
  · next hboth => exact iff_of_true rfl hboth.1
  · split
    · next hfirst => exact iff_of_true rfl hfirst
    · next hfirst => split <;> exact iff_of_false (by decide) hfirst

theorem isBoss_iff (h : RolesByPlace rooms) (hr : rooms[i]? = some r) :
    r.isBoss = true ↔ i + 1 = rooms.length := by
  rw [isBoss, h i r hr, kindAt]
  split
  · next hboth => exact iff_of_true rfl hboth.2
  · next hboth =>
    split
    · next hfirst => exact iff_of_false (by decide) fun hlast => hboth ⟨hfirst, hlast⟩
    · split
      · next hlast => exact iff_of_true rfl hlast
      · next hlast => exact iff_of_false (by decide) hlast

/-- One room is both only if it is alone. -/
theorem exists_both_iff (h : RolesByPlace rooms) :
    (∃ r ∈ rooms, r.isSpawn = true ∧ r.isBoss = true) ↔ rooms.length = 1 := by
  constructor
  · rintro ⟨r, hr, hspawn, hboss⟩
    obtain ⟨i, hi⟩ := List.mem_iff_getElem?.mp hr
    rw [← (h.isBoss_iff hi).mp hboss, (h.isSpawn_iff hi).mp hspawn]
  · intro hone
    obtain ⟨only, rfl⟩ := List.length_eq_one_iff.mp hone
    exact ⟨only, List.mem_singleton_self only, (h.isSpawn_iff rfl).mpr rfl,
      (h.isBoss_iff rfl).mpr rfl⟩

end Room.RolesByPlace

/-! ## What they hold -/

namespace Room

/-- The room holds what its role asks for, whatever the densities are. -/
structure Furnished (r : Room) : Prop where
  lair : r.isBoss = true → (2 ≤ r.monsters ∧ r.monsters ≤ 4) ∧ r.treasures = 1 ∧ r.traps = 0
  entrance : r.isSpawn = true → r.isBoss = false →
    r.monsters = 0 ∧ r.treasures = 0 ∧ r.traps = 0

theorem furnish_furnished (a : Template) {r : Room} (hempty : r.outline = r) :
    (r.furnish a).Ensures Furnished := by
  have hmonsters : r.monsters = 0 := (congrArg monsters hempty).symm
  have htreasures : r.treasures = 0 := (congrArg treasures hempty).symm
  have htraps : r.traps = 0 := (congrArg traps hempty).symm
  unfold furnish
  split
  · next hboss =>
    refine (Draw.between_ensures (by decide)).bind fun monsters hguard => .pure ?_
    exact ⟨fun _ => ⟨hguard, rfl, htraps⟩, fun _ hnot => absurd (hboss.symm.trans hnot) (by decide)⟩
  · next hboss =>
    split
    · exact .pure ⟨fun h => absurd h hboss, fun _ _ => ⟨hmonsters, htreasures, htraps⟩⟩
    · next hspawn =>
      refine (Draw.Ensures.trivial _).bind fun monsters _ => ?_
      refine (Draw.Ensures.trivial _).bind fun treasures _ => ?_
      refine (Draw.Ensures.trivial _).bind fun traps _ => .pure ?_
      exact ⟨fun h => absurd h hboss, fun h _ => absurd h hspawn⟩

end Room

namespace Map

theorem populate_furnished (m : Map) (a : Template) :
    (m.populate a).Ensures fun populated => ∀ r ∈ populated.rooms, r.Furnished := by
  refine (Draw.Ensures.forall_mem_mapM fun r hr => ?_).bind fun rooms hrooms => .pure hrooms
  obtain ⟨⟨r, place⟩, _, rfl⟩ := List.mem_map.mp hr
  exact Room.furnish_furnished a rfl

/-! ## What they held before -/

/-- Emptied rooms depend on the places, the ids and the rectangles of the rooms only. -/
theorem emptied_congr {rooms rooms' : List Room} (count : Nat)
    (h : rooms'.map Room.bare = rooms.map Room.bare) :
    (rooms'.zipIdx.map fun (r, place) => r.emptied place count) =
      rooms.zipIdx.map fun (r, place) => r.emptied place count := by
  have hbare : ∀ rooms : List Room, (rooms.zipIdx.map fun (r, place) => r.emptied place count) =
      (rooms.map Room.bare).zipIdx.map fun (r, place) => r.emptied place count := by
    intro rooms
    rw [List.zipIdx_map, List.map_map]
    rfl
  rw [hbare rooms', h, ← hbare rooms]

theorem populate_run (m : Map) (a : Template) (s : Source) :
    (m.populate a).run s =
      let furnished := ((m.rooms.zipIdx.map fun (r, place) =>
        r.emptied place m.rooms.length).mapM (Room.furnish a)).run s
      ({ m with rooms := furnished.1 }, furnished.2) := rfl

theorem populate_congr {m m' : Map} (h : m'.rooms.map Room.bare = m.rooms.map Room.bare)
    (a : Template) (s : Source) :
    ((m'.populate a).run s).1.rooms = ((m.populate a).run s).1.rooms ∧
      ((m'.populate a).run s).2 = ((m.populate a).run s).2 := by
  simp only [populate_run, emptied_congr _ h, length_bare h, and_self]

/-- Populating changes the roles of rooms and what they hold, and nothing else of a map. The first
room becomes the entrance and the last one the lair. The lair has two to four monsters and one
treasure but no traps, the entrance is empty unless it is the lair too, and no count is negative.
What is drawn and what becomes of the rooms does not depend on what they were or held before. -/
theorem populate_exact (m : Map) (a : Template) (s : Source) :
    let populated := ((m.populate a).run s).1
    (∃ rooms, populated = { m with rooms } ∧ rooms.map Room.bare = m.rooms.map Room.bare) ∧
      (∀ i r, populated.rooms[i]? = some r →
        (r.isSpawn = true ↔ i = 0) ∧ (r.isBoss = true ↔ i + 1 = m.rooms.length)) ∧
      ((∃ r ∈ populated.rooms, r.isSpawn = true ∧ r.isBoss = true) ↔ m.rooms.length = 1) ∧
      (∀ r ∈ populated.rooms,
        (r.isBoss = true →
          (2 ≤ r.monsters ∧ r.monsters ≤ 4) ∧ r.treasures = 1 ∧ r.traps = 0) ∧
        (r.isSpawn = true → r.isBoss = false →
          r.monsters = 0 ∧ r.treasures = 0 ∧ r.traps = 0) ∧
        0 ≤ r.monsters ∧ 0 ≤ r.treasures ∧ 0 ≤ r.traps) ∧
      ∀ m' : Map, m'.rooms.map Room.bare = m.rooms.map Room.bare →
        ((m'.populate a).run s).1.rooms = populated.rooms ∧
          ((m'.populate a).run s).2 = ((m.populate a).run s).2 := by
  intro populated
  obtain ⟨rooms, hpopulated, hbare, hstocked⟩ := m.populate_ensures a s
  have hrooms : populated.rooms = rooms := congrArg Map.rooms hpopulated
  have hlength : populated.rooms.length = m.rooms.length := by rw [hrooms, length_bare hbare]
  have hroles : Room.RolesByPlace populated.rooms := m.populate_roles a s
  refine ⟨⟨rooms, hpopulated, hbare⟩, fun i r hr => ?_, hlength ▸ hroles.exists_both_iff,
    fun r hr => ?_, fun m' hsame => populate_congr hsame a s⟩
  · rw [← hlength]
    exact ⟨hroles.isSpawn_iff hr, hroles.isBoss_iff hr⟩
  · have hfurnished : r.Furnished := m.populate_furnished a s r hr
    have hcounts := hstocked r (hrooms ▸ hr)
    exact ⟨hfurnished.lair, hfurnished.entrance, hcounts.monsters, hcounts.treasures,
      hcounts.traps⟩

end Map
end Dungeon
