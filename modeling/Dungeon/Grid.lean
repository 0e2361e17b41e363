import Dungeon.Code
import Dungeon.Geometry
import Dungeon.Text

/-!
# Tiles and grids

A grid holds its tiles row by row. Looking at a tile works for every point: outside the grid it is
`Tile.outside`, which no generator stores. Carving turns points into floor and skips those outside.
-/

namespace Dungeon

/-- What lies on a point. A stored code beyond the four listed ones is kept as it is. -/
inductive Tile where
  | wall
  | floor
  | door
  | outside
  | unlisted (c : Unlisted 4)
  deriving DecidableEq, Repr, Inhabited

namespace Tile

def code : Tile → UInt8
  | wall => 0
  | floor => 1
  | door => 2
  | outside => 3
  | unlisted c => c.code

def ofCode (c : UInt8) : Tile :=
  if h : 4 ≤ c then unlisted ⟨c, h⟩
  else
    match c with
    | 0 => wall
    | 1 => floor
    | 2 => door
    | _ => outside

def isFloor : Tile → Bool
  | floor => true
  | _ => false

/-- The tag of a tile. Unlisted tiles count as wall. -/
def tag : Tile → Text
  | wall => "wall"
  | floor => "floor"
  | door => "door"
  | outside => "out_of_bounds"
  | unlisted _ => "wall"

end Tile

/-- A rectangle of tiles, row by row. -/
structure Grid where
  width : Int
  height : Int
  tiles : Array Tile
  deriving DecidableEq, Repr, Inhabited

namespace Grid

/-- A grid of wall. Without a positive area it holds no tiles. -/
def walls (width height : Int) : Grid :=
  ⟨width, height, Array.replicate (if 0 < width ∧ 0 < height then (width * height).toNat else 0) .wall⟩

/-- The rectangle that the grid covers. -/
def frame (g : Grid) : Rect := ⟨0, 0, g.width, g.height⟩

@[inline] def inBounds (g : Grid) (p : Point) : Bool :=
  decide (0 ≤ p.x ∧ 0 ≤ p.y ∧ p.x < g.width ∧ p.y < g.height)

/-- The place of a point inside the grid. -/
@[inline] def index (g : Grid) (p : Point) : Nat := (p.y * g.width + p.x).toNat

/-- The tile on a point. -/
@[inline] def tileAt (g : Grid) (p : Point) : Tile :=
  if g.inBounds p then g.tiles.getD (g.index p) .wall else .outside

@[inline] def isFloor (g : Grid) (p : Point) : Bool := (g.tileAt p).isFloor

/-- The grid with another tile on a point inside it. -/
def put (g : Grid) (p : Point) (t : Tile) : Grid :=
  { g with tiles := g.tiles.setIfInBounds (g.index p) t }

/-- The grid with a point turned into floor, if it lies inside. -/
def carvePoint (g : Grid) (p : Point) : Grid := if g.inBounds p then g.put p .floor else g

/-- The grid with all the points inside it turned into floor. -/
def carve (g : Grid) (points : List Point) : Grid := points.foldl carvePoint g

/-- The grid with a rectangle turned into floor. -/
def carveRect (g : Grid) (r : Rect) : Grid := g.carve (r.inside g.frame).points

/-- The grid with every tile turned into wall. -/
def filled (g : Grid) : Grid := { g with tiles := g.tiles.map fun _ => .wall }

/-- The grid with its first tiles replaced by others. -/
def overlay (g : Grid) (tiles : Array Tile) : Grid :=
  { g with tiles := tiles ++ g.tiles.extract tiles.size g.tiles.size }

/-- The points of the grid, row by row. -/
def points (g : Grid) : List Point := g.frame.points

def floorCount (g : Grid) : Nat := g.tiles.countP Tile.isFloor

/-- A grid of a size whose floor is given by a test on points. -/
def ofFloor (width height : Int) (isFloor : Point → Bool) : Grid :=
  ⟨width, height,
    ((Rect.mk 0 0 width height).points.map fun p => if isFloor p then .floor else .wall).toArray⟩

end Grid
end Dungeon
