import Dungeon.Map
import Dungeon.Region
import Dungeon.Template.Fault

/-!
# Auditing maps

An audit looks for the first thing that is wrong with a map: its grid, then its rooms one by one,
then its corridors, then how rooms and floor lie, and last whether every room can be reached. Caves
are not held to the rules on how rooms and floor lie, since their rooms share one open space.
-/

namespace Dungeon

/-- What an audit finds wrong. -/
inductive Finding where
  | noArea
  | tileCount
  | noRooms
  | wrongId (place : Nat) (id : Int)
  | roomOutside (id : Int) (r : Rect)
  | negativeCount (id : Int)
  | brokenPath (roomA roomB : Int) (step : Nat)
  | roomsMeet (first second : Nat) (padding : Int)
  | looseFloor
  | unreachable
  deriving DecidableEq, Repr

namespace Finding

def message : Finding → Text
  | noArea => "Map has no area"
  | tileCount => "Tile grid size mismatch"
  | noRooms => "Map has no rooms"
  | wrongId place id => "Room " ++ Text.ofNat place ++ " has id " ++ Text.ofInt id
  | roomOutside id r =>
      "Room " ++ Text.ofInt id ++ " is outside the map (" ++ Text.ofInt r.x ++ "," ++ Text.ofInt r.y
        ++ " " ++ sizeText r.w r.h ++ ")"
  | negativeCount id => "Room " ++ Text.ofInt id ++ " has negative feature counts"
  | brokenPath a b step =>
      "Corridor " ++ Text.ofInt a ++ "->" ++ Text.ofInt b ++ " is not 4-connected at step "
        ++ Text.ofNat step
  | roomsMeet first second padding =>
      "Rooms " ++ Text.ofNat first ++ " and " ++ Text.ofNat second ++ " intersect with padding "
        ++ Text.ofInt padding
  | looseFloor => "Floor tile outside every room and corridor"
  | unreachable => "Not every room is reachable from the first room"

end Finding

/-- The first step of a path that is not one step along an axis, with steps counted from `n`. -/
def brokenStep? : Nat → List Point → Option Nat
  | n, p :: q :: rest => if p.manhattan q = 1 then brokenStep? (n + 1) (q :: rest) else some n
  | _, _ => none

/-- The places of the first two rooms that meet, with places counted from `n`. -/
def firstMeeting? (padding : Int) : Nat → List Room → Option (Nat × Nat)
  | _, [] => none
  | n, r :: rest =>
      match rest.findIdx? fun other => r.meets other.toRect padding with
      | some k => some (n, n + 1 + k)
      | none => firstMeeting? padding (n + 1) rest

namespace Map

/-- Every room center is floor in the region of the first room's center. -/
def roomsConnected (m : Map) : Bool :=
  match m.rooms with
  | [] => false
  | first :: _ =>
      let marks := m.grid.flood first.center
      m.grid.isFloor first.center &&
        m.rooms.all fun r => m.grid.inBounds r.center && m.grid.isMarked marks r.center

/-- Every floor point lies in a room or on a corridor. -/
def floorIsCovered (m : Map) : Bool :=
  let g := m.grid
  let cover := (Grid.walls g.width g.height).carvePlan m.rooms m.corridors
  g.points.all fun p => !g.isFloor p || cover.isFloor p

/-! ## The parts of an audit -/

def auditGrid (m : Map) : Option Finding :=
  let g := m.grid
  if g.width ≤ 0 ∨ g.height ≤ 0 then some .noArea
  else if (g.tiles.size : Int) ≠ g.width * g.height then some .tileCount
  else if m.rooms = [] then some .noRooms
  else none

/-- What is wrong with the room at a place. -/
def auditRoom (m : Map) (r : Room) (place : Nat) : Option Finding :=
  if r.id ≠ place then some (.wrongId place r.id)
  else if r.w ≤ 0 ∨ r.h ≤ 0 ∨ r.x < 0 ∨ r.y < 0 ∨ m.grid.width < r.right ∨ m.grid.height < r.bottom
  then some (.roomOutside r.id r.toRect)
  else if r.monsters < 0 ∨ r.treasures < 0 ∨ r.traps < 0 then some (.negativeCount r.id)
  else none

def auditCorridor (c : Corridor) : Option Finding :=
  (brokenStep? 1 c.path).map fun step => .brokenPath c.roomA c.roomB step

/-- What is wrong with how rooms and floor lie. -/
def auditPlan (m : Map) (padding : Int) : Option Finding :=
  if m.area.algorithm = .cavern then none
  else
    match firstMeeting? padding 0 m.rooms with
    | some (first, second) => some (.roomsMeet first second padding)
    | none => if m.floorIsCovered then none else some .looseFloor

def auditReach (m : Map) : Option Finding := if m.roomsConnected then none else some .unreachable

/-- The first thing that is wrong with a map, if anything is. -/
def audit? (m : Map) (padding : Int) : Option Finding :=
  m.auditGrid
    <|> m.rooms.zipIdx.findSome? (fun (r, place) => m.auditRoom r place)
    <|> m.corridors.findSome? auditCorridor
    <|> m.auditPlan padding
    <|> m.auditReach

/-- Audits a map for a caller who hands over a message, and tells whether the map passed. Only a
finding replaces the message. -/
def check (m : Map) (padding : Int) (message : Text) : Bool × Text :=
  match m.audit? padding with
  | none => (true, message)
  | some finding => (false, finding.message)

end Map
end Dungeon
