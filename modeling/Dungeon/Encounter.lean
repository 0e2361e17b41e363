import Dungeon.Hash
import Dungeon.Map

/-!
# Encounters

Every room that holds monsters makes an encounter. Its kind follows from the role of the room and
what it holds; only between a pack and a puzzle a hash of the seed and the room decides. Nothing is
drawn, so deriving encounters again gives the same ones.
-/

namespace Dungeon

inductive EncounterKind where
  | monsterPack
  | treasureRoom
  | trapGauntlet
  | bossRoom
  | puzzleChamber
  deriving DecidableEq, Repr

namespace EncounterKind

/-- The kind of a stored code. Unlisted codes count as the first. -/
def ofCode (c : UInt8) : EncounterKind :=
  match c with
  | 1 => treasureRoom
  | 2 => trapGauntlet
  | 3 => bossRoom
  | 4 => puzzleChamber
  | _ => monsterPack

def tag : EncounterKind → Text
  | monsterPack => "monster_pack"
  | treasureRoom => "treasure_room"
  | trapGauntlet => "trap_gauntlet"
  | bossRoom => "boss_room"
  | puzzleChamber => "puzzle_chamber"

/-- The difficulty before level and number count. -/
def baseDifficulty : EncounterKind → Number.Single
  | monsterPack => .percent 50
  | treasureRoom => .percent 30
  | trapGauntlet => .percent 40
  | bossRoom => .percent 90
  | puzzleChamber => .percent 60

end EncounterKind

structure Encounter where
  roomId : Int
  kind : EncounterKind
  difficulty : Number.Single
  deriving DecidableEq, Repr

namespace Map

/-- The hash of a room for one purpose. -/
def roomHash (m : Map) (purpose : String) (r : Room) : UInt32 :=
  Hash.combine₃ m.seed (Hash.tag purpose) (UInt32.ofInt r.id)

def encounterKind (m : Map) (r : Room) : EncounterKind :=
  if r.isBoss then .bossRoom
  else if r.monsters < r.traps then .trapGauntlet
  else if 0 < r.treasures then .treasureRoom
  else if m.roomHash "PUZZLE" r % 5 = 0 then .puzzleChamber
  else .monsterPack

/-- The base difficulty times the level, and a tenth more for every monster after the first. -/
def difficulty (m : Map) (kind : EncounterKind) (monsters : Int) : Number.Single :=
  let single (n : Int) := Number.Binary.ofInt Number.single n
  let level := if 0 < m.area.level then m.area.level else 1
  let extra := if 1 < monsters then monsters - 1 else 0
  kind.baseDifficulty * single level * (single 1 + .percent 10 * single extra)

/-- The encounter in a room. -/
def encounter (m : Map) (r : Room) : Encounter :=
  let kind := m.encounterKind r
  ⟨r.id, kind, m.difficulty kind r.monsters⟩

/-- The encounters of a map, in the order of its rooms. -/
def encounters (m : Map) : List Encounter :=
  (m.rooms.filter fun r => decide (0 < r.monsters)).map m.encounter

end Map
end Dungeon
