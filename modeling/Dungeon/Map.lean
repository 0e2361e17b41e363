import Dungeon.Grid
import Dungeon.Room
import Dungeon.Template

/-!
# Maps

A map is a grid with rooms and corridors, the seed it was made from and the template it follows.
Rooms stand in the order in which they were added, and the next room gets their number as its id.
-/

namespace Dungeon

structure Map where
  grid : Grid := .walls 0 0
  rooms : List Room := []
  corridors : List Corridor := []
  seed : UInt32 := 0
  area : Template := {}
  deriving DecidableEq, Repr

/-- The grid with the rectangles of rooms and the paths of corridors turned into floor. -/
def Grid.carvePlan (g : Grid) (rooms : List Room) (corridors : List Corridor) : Grid :=
  let carved := rooms.foldl (fun g r => g.carveRect r.toRect) g
  corridors.foldl (fun g c => g.carve c.path) carved

namespace Map

/-- A map of wall. -/
def ofSize (width height : Int) : Map := { grid := .walls width height }

/-- The map with wall everywhere, and without rooms and corridors. -/
def cleared (m : Map) : Map := { m with grid := m.grid.filled, rooms := [], corridors := [] }

/-- The map with a rectangle turned into floor. -/
def carveRect (m : Map) (r : Rect) : Map := { m with grid := m.grid.carveRect r }

/-- The map with the path of a corridor turned into floor. -/
def carveCorridor (m : Map) (c : Corridor) : Map := { m with grid := m.grid.carve c.path }

/-- The map with one more room, its rectangle turned into floor. -/
def addRoom (m : Map) (r : Rect) : Map :=
  { m.carveRect r with rooms := m.rooms ++ [Room.ofRect m.rooms.length r] }

/-- The map with one more corridor, its path turned into floor. -/
def addCorridor (m : Map) (c : Corridor) : Map :=
  { m.carveCorridor c with corridors := m.corridors ++ [c] }

/-- The map that holds just these rooms and corridors. -/
def ofPlan (m : Map) (rooms : List Room) (corridors : List Corridor) : Map :=
  { m with grid := m.grid.filled.carvePlan rooms corridors, rooms, corridors }

/-- The two maps have the same size, seed, tiles, rooms and corridors. -/
def sameLayout (m n : Map) : Bool :=
  m.grid == n.grid && m.seed == n.seed && m.rooms == n.rooms && m.corridors == n.corridors

end Map
end Dungeon
