import Dungeon.Encounter
import Dungeon.Proofs.Roles

/-!
# The encounters of a map

In a generated map the last room is the lair, which always has a guard, and the first one is the
entrance, which has none unless it is the lair too. So there is always an encounter, the last one is
that with the boss, and the others lie in rooms between. What these are is told by what the rooms
hold, and where that does not tell, by the seed and the number of the room alone.

Results:
1. `Map.encounterKind_gauntlet_iff`, `Map.encounterKind_treasure_iff`, `Map.encounterKind_rest`: the
   kind of an encounter that is not in the lair.
2. `Map.encounters_concat`: the encounter of the lair comes last.
3. `Map.exists_entrance_iff`: whether there is one in the entrance.
4. `Handover.generate_encounters`: the encounters of a generated map.
-/

namespace Dungeon

/-- The seed and the number of a room make it a puzzle, if nothing it holds decides otherwise. -/
def puzzleAt (seed : UInt32) (id : Int) : Bool :=
  Hash.combine₃ seed (Hash.tag "PUZZLE") (UInt32.ofInt id) % 5 = 0

namespace Map

variable {m : Map} {r : Room}

/-! ## Kinds -/

theorem encounterKind_boss (h : r.isBoss = true) : m.encounterKind r = .bossRoom := if_pos h

section Guarded

variable (h : r.isBoss = false)

include h

theorem encounterKind_ne_boss : m.encounterKind r ≠ .bossRoom := by
  rw [encounterKind, if_neg (ne_true_of_eq_false h)]
  split
  · decide
  · split
    · decide
    · split <;> decide

theorem encounterKind_gauntlet_iff :
    m.encounterKind r = .trapGauntlet ↔ r.monsters < r.traps := by
  rw [encounterKind, if_neg (ne_true_of_eq_false h)]
  split
  · next htraps => exact iff_of_true rfl htraps
  · next htraps =>
    refine iff_of_false ?_ htraps
    split
    · decide
    · split <;> decide

theorem encounterKind_treasure_iff :
    m.encounterKind r = .treasureRoom ↔ ¬ r.monsters < r.traps ∧ 0 < r.treasures := by
  rw [encounterKind, if_neg (ne_true_of_eq_false h)]
  split
  · next htraps => exact iff_of_false (by decide) fun hnot => hnot.1 htraps
  · next htraps =>
    split
    · next htreasures => exact iff_of_true rfl ⟨htraps, htreasures⟩
    · next htreasures =>
      refine iff_of_false ?_ fun hnot => htreasures hnot.2
      split <;> decide

theorem encounterKind_rest (htraps : ¬ r.monsters < r.traps) (htreasures : ¬ 0 < r.treasures) :
    m.encounterKind r = if puzzleAt m.seed r.id then .puzzleChamber else .monsterPack := by
  rw [encounterKind, if_neg (ne_true_of_eq_false h), if_neg htraps, if_neg htreasures]
  exact if_congr decide_eq_true_iff.symm rfl rfl

end Guarded

/-! ## Rooms with monsters -/

/-- Every encounter is that of a room with monsters, and every such room has one. -/
theorem mem_encounters {e : Encounter} :
    e ∈ m.encounters ↔ ∃ r ∈ m.rooms, 0 < r.monsters ∧ m.encounter r = e := by
  simp only [encounters, List.mem_map, List.mem_filter, decide_eq_true_eq, and_assoc]

theorem exists_roomId_iff {id : Int} :
    (∃ e ∈ m.encounters, e.roomId = id) ↔ ∃ r ∈ m.rooms, r.id = id ∧ 0 < r.monsters := by
  constructor
  · rintro ⟨e, he, rfl⟩
    obtain ⟨r, hr, hguard, rfl⟩ := mem_encounters.mp he
    exact ⟨r, hr, rfl, hguard⟩
  · rintro ⟨r, hr, rfl, hguard⟩
    exact ⟨m.encounter r, mem_encounters.mpr ⟨r, hr, hguard, rfl⟩, rfl⟩

theorem pairwise_roomId (hnumber : Room.Numbered m.rooms) :
    m.encounters.Pairwise fun e f => e.roomId < f.roomId := by
  have hrooms : m.rooms.Pairwise fun r t => r.id < t.id := by
    rw [List.pairwise_iff_getElem]
    intro i j hi hj hij
    rw [hnumber i _ (List.getElem?_eq_getElem hi), hnumber j _ (List.getElem?_eq_getElem hj)]
    exact_mod_cast hij
  exact List.pairwise_map.mpr (hrooms.sublist List.filter_sublist)

section Furnished

variable (hroles : Room.RolesByPlace m.rooms) (hfurnished : ∀ r ∈ m.rooms, r.Furnished)

include hroles hfurnished

/-- The entrance has monsters only if it is the lair too. -/
theorem exists_entrance_iff (hnumber : Room.Numbered m.rooms) :
    (∃ e ∈ m.encounters, e.roomId = 0) ↔ m.rooms.length = 1 := by
  rw [exists_roomId_iff]
  constructor
  · rintro ⟨r, hr, hzero, hguard⟩
    have hplace := hnumber.getElem?_id hr
    rw [hzero] at hplace
    have hspawn : r.isSpawn = true := (hroles.isSpawn_iff hplace).mpr rfl
    refine hroles.exists_both_iff.mp ⟨r, hr, hspawn, ?_⟩
    by_contra hboss
    have hempty := (hfurnished r hr).entrance hspawn (eq_false_of_ne_true hboss)
    omega
  · intro hone
    obtain ⟨r, hr, hspawn, hboss⟩ := hroles.exists_both_iff.mpr hone
    have hlair := (hfurnished r hr).lair hboss
    obtain ⟨i, hi⟩ := List.mem_iff_getElem?.mp hr
    refine ⟨r, hr, ?_, by omega⟩
    rw [hnumber i r hi, (hroles.isSpawn_iff hi).mp hspawn, Int.natCast_zero]

/-- The lair is the last room and it has a guard, so its encounter comes last. -/
theorem encounters_concat (hne : m.rooms ≠ []) :
    ∃ front last, m.rooms = front ++ [last] ∧ last.isBoss = true ∧
      (∀ r ∈ front, r.isBoss = false) ∧
      m.encounters =
        (front.filter fun r => decide (0 < r.monsters)).map m.encounter ++ [m.encounter last] := by
  obtain ⟨front, last, hrooms⟩ := List.eq_nil_or_concat' m.rooms |>.resolve_left hne
  have hlength : m.rooms.length = front.length + 1 := by
    rw [hrooms, List.length_append, List.length_singleton]
  have hlast : last.isBoss = true := by
    have hplace : m.rooms[front.length]? = some last := by
      rw [hrooms, List.getElem?_concat_length]
    exact (hroles.isBoss_iff hplace).mpr hlength.symm
  have hguard : 0 < last.monsters := by
    have hlair := (hfurnished last (by rw [hrooms]; simp)).lair hlast
    omega
  refine ⟨front, last, hrooms, hlast, fun r hr => ?_, ?_⟩
  · obtain ⟨i, hi, rfl⟩ := List.mem_iff_getElem.mp hr
    have hplace : m.rooms[i]? = some front[i] := by
      rw [hrooms, List.getElem?_append_left hi, List.getElem?_eq_getElem hi]
    rw [← Bool.not_eq_true, hroles.isBoss_iff hplace]
    omega
  · rw [encounters, hrooms, List.filter_append, List.map_append,
      List.filter_cons_of_pos (by simpa using hguard)]
    rfl

end Furnished

end Map

/-! ## Generated maps -/

namespace Handover

theorem generate_furnished {h : Handover} {seed : UInt32} {a : Template}
    (hok : (h.generate seed a).1 = true) :
    ∀ r ∈ (h.generate seed a).2.map.rooms, r.Furnished := by
  rw [map_generate hok]
  exact Map.populate_furnished _ a _

/-- The encounters of a generated map name the rooms with monsters, in the order of their numbers.
The last encounter is that with the boss in the last room, and there is no other boss. The first
room only has an encounter if there is no other room. All other encounters are gauntlets where there
are more traps than monsters, else treasure rooms where there is a treasure, and else puzzles or
packs as the seed and the number of the room decide. -/
theorem generate_encounters (h : Handover) (seed : UInt32) (a : Template)
    (hok : (h.generate seed a).1 = true) :
    let m := (h.generate seed a).2.map
    m.encounters.Pairwise (fun e f => e.roomId < f.roomId) ∧
      (∀ id, (∃ e ∈ m.encounters, e.roomId = id) ↔ ∃ r ∈ m.rooms, r.id = id ∧ 0 < r.monsters) ∧
      ((∃ e ∈ m.encounters, e.roomId = 0) ↔ m.rooms.length = 1) ∧
      ∃ others lair, m.encounters = others ++ [lair] ∧
        lair.roomId = (m.rooms.length : Int) - 1 ∧ lair.kind = .bossRoom ∧
        ∀ e ∈ others, e.kind ≠ .bossRoom ∧
          ∃ r, m.rooms[e.roomId.toNat]? = some r ∧ r.id = e.roomId ∧
          (e.kind = .trapGauntlet ↔ r.monsters < r.traps) ∧
          (e.kind = .treasureRoom ↔ ¬ r.monsters < r.traps ∧ 0 < r.treasures) ∧
          (¬ r.monsters < r.traps → ¬ 0 < r.treasures →
            e.kind = if puzzleAt m.seed e.roomId then .puzzleChamber else .monsterPack) := by
  intro m
  have hwell : WellLaid a m := generate_wellLaid hok
  have hnumber : Room.Numbered m.rooms := hwell.number
  have hroles : Room.RolesByPlace m.rooms := generate_roles hok
  have hfurnished : ∀ r ∈ m.rooms, r.Furnished := generate_furnished hok
  obtain ⟨front, last, hrooms, hlast, hfront, hencounters⟩ :=
    Map.encounters_concat hroles hfurnished hwell.someRoom
  have hlastId : last.id = (m.rooms.length : Int) - 1 := by
    rw [hnumber front.length last (by rw [hrooms, List.getElem?_concat_length]), hrooms,
      List.length_append, List.length_singleton]
    omega
  refine ⟨Map.pairwise_roomId hnumber, fun id => Map.exists_roomId_iff,
    Map.exists_entrance_iff hroles hfurnished hnumber, _, _, hencounters, hlastId,
    Map.encounterKind_boss hlast, fun e he => ?_⟩
  obtain ⟨r, hr, rfl⟩ := List.mem_map.mp he
  have hmem : r ∈ front := List.mem_of_mem_filter hr
  have hboss := hfront r hmem
  refine ⟨Map.encounterKind_ne_boss hboss, r, ?_, rfl, Map.encounterKind_gauntlet_iff hboss,
    Map.encounterKind_treasure_iff hboss, Map.encounterKind_rest hboss⟩
  exact hnumber.getElem?_id (by rw [hrooms]; exact List.mem_append_left _ hmem)

/-- A puzzle, a gauntlet, a pack and a boss, and none in the entrance. -/
theorem generate_encounters_trapped :
    let a : Template :=
      { algorithm := .scatter, width := 16, height := 16, monsterDensity := .percent 100,
        trapDensity := .percent 100, scatter := { targetRooms := 5, padding := 0 } }
    let m := (Handover.generate {} 24 a).2.map
    (Handover.generate {} 24 a).1 = true ∧
      (m.encounters.map fun e => (e.roomId, e.kind)) =
        [(1, .puzzleChamber), (2, .trapGauntlet), (3, .monsterPack), (4, .bossRoom)] ∧
      ¬ ∃ e ∈ m.encounters, e.roomId = 0 := by
  intro a m
  have hok : (Handover.generate {} 24 a).1 = true := by decide +kernel
  obtain ⟨-, -, hfirst, -⟩ := generate_encounters {} 24 a hok
  refine ⟨hok, by decide +kernel, fun hentrance => ?_⟩
  have hmany : m.rooms.length ≠ 1 := by decide +kernel
  exact hmany (hfirst.mp hentrance)

end Handover
end Dungeon
