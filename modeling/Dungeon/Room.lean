import Dungeon.Code
import Dungeon.Geometry
import Dungeon.Random
import Dungeon.Text

/-!
# Rooms and corridors

A room is a rectangle with a number, a role and what it holds. A corridor names two rooms and the
path between their centers.
-/

namespace Dungeon

/-- The role of a room. A stored code beyond the four listed ones is kept as it is. -/
inductive RoomKind where
  | normal
  | spawn
  | boss
  /-- The only room of a map is its entrance and its lair. -/
  | spawnBoss
  | unlisted (c : Unlisted 4)
  deriving DecidableEq, Repr, Inhabited

namespace RoomKind

def code : RoomKind → UInt8
  | normal => 0
  | spawn => 1
  | boss => 2
  | spawnBoss => 3
  | unlisted c => c.code

def ofCode (c : UInt8) : RoomKind :=
  if h : 4 ≤ c then unlisted ⟨c, h⟩
  else
    match c with
    | 0 => normal
    | 1 => spawn
    | 2 => boss
    | _ => spawnBoss

/-- The tag of a role. Unlisted roles count as normal. -/
def tag : RoomKind → Text
  | normal => "normal"
  | spawn => "spawn"
  | boss => "boss"
  | spawnBoss => "spawn_boss"
  | unlisted _ => "normal"

end RoomKind

structure Room extends Rect where
  id : Int
  kind : RoomKind := .normal
  monsters : Int := 0
  treasures : Int := 0
  traps : Int := 0
  deriving DecidableEq, Repr, Inhabited

namespace Room

/-- A room as it is laid out, before anything is put into it. -/
def ofRect (id : Int) (r : Rect) : Room := { toRect := r, id }

def isSpawn (r : Room) : Bool := r.kind == .spawn || r.kind == .spawnBoss

def isBoss (r : Room) : Bool := r.kind == .boss || r.kind == .spawnBoss

/-- Two rooms at different places of the list meet with a padding. -/
def anyMeet (padding : Int) : List Room → Bool
  | [] => false
  | r :: rest => rest.any (fun other => r.meets other.toRect padding) || anyMeet padding rest

end Room

structure Corridor where
  roomA : Int
  roomB : Int
  path : List Point
  deriving DecidableEq, Repr, Inhabited

namespace Corridor

/-- The corridor between the centers of two rooms. -/
def between (bend : Bend) (a b : Room) : Corridor :=
  ⟨a.id, b.id, bend.path a.center b.center⟩

/-- The corridor between the centers of two rooms, with the bend drawn. -/
def draw (a b : Room) : Draw Corridor := do
  let k ← Draw.between 0 1
  pure (between (if k = 0 then .horizontal else .vertical) a b)

end Corridor

end Dungeon
