import Dungeon.Generate
import Dungeon.Region

/-!
# Editing maps

An editor holds a map, a random source, a saved map and a report, and an edit changes them. Edits
that lay out or generate leave word of how they failed, if they did. Whole runs of edits are folds,
so what every edit keeps, every run keeps.
-/

namespace Dungeon

/-- One change. -/
inductive Edit where
  /-- Starts over with a map of wall. -/
  | start (width height : Int)
  /-- Records another seed on the map. -/
  | seed (seed : UInt32)
  /-- Records another template on the map. -/
  | area (a : Template)
  /-- Starts the random source again. -/
  | reseed (seed : UInt32)
  | clear
  | carveRect (r : Rect)
  /-- Turns a path into floor without recording a corridor. -/
  | carvePath (path : List Point)
  | putTile (p : Point) (t : Tile)
  /-- Adds a room and carves it. -/
  | addRoom (r : Rect)
  /-- Records a room without carving it. -/
  | recordRoom (room : Room)
  | dropLastRoom
  /-- Puts another room into the place of one. -/
  | replaceRoom (place : Nat) (room : Room)
  /-- Records a corridor without carving it. -/
  | recordCorridor (c : Corridor)
  /-- Joins two rooms, given by their places, with a corridor. -/
  | connect (first second : Nat)
  /-- Records another size without touching the tiles. -/
  | recordSize (width height : Int)
  | keepLargest
  | populate
  /-- Lays the map out anew by its template, but with the given layout, whether the template is
  faulty or not. -/
  | layOut (algorithm : Algorithm)
  /-- Replaces the map by a generated one, if the generation succeeds. -/
  | generate (seed : UInt32) (a : Template)
  | save
  deriving Repr

structure Editor where
  map : Map
  source : Source
  saved : Map := {}
  report : Report := {}
  /-- How the last layout or generation failed. -/
  fault : Option Fault := none
  deriving Repr

namespace Editor

/-- An editor with a map of wall whose seed also starts the random source. -/
def new (width height : Int) (seed : UInt32) (area : Template) : Editor :=
  { map := { Map.ofSize width height with seed, area }, source := .ofSeed seed }

/-- Changes the map. -/
def onMap (e : Editor) (change : Map → Map) : Editor := { e with map := change e.map }

/-- Changes the map by draws from the source. -/
def onDraw (e : Editor) (draw : Draw Map) : Editor :=
  let (map, source) := draw.run e.source
  { e with map, source }

/-- Joins two rooms, if there are such. -/
def connect (e : Editor) (first second : Nat) : Editor :=
  match e.map.rooms[first]?, e.map.rooms[second]? with
  | some a, some b => e.onDraw (e.map.addCorridor <$> Corridor.draw a b)
  | _, _ => e

/-- Lays out the map. -/
def layOut (e : Editor) (algorithm : Algorithm) : Editor :=
  let a := { e.map.area with algorithm }
  let (laid, source) := (Layout.run a e.map e.report).run e.source
  { e with map := laid.map, source, report := laid.report, fault := laid.fault }

/-- Generates a map. The report starts anew, and the random source is left alone. -/
def generate (e : Editor) (seed : UInt32) (a : Template) : Editor :=
  match Dungeon.generate seed a with
  | (.ok map, report) => { e with map, report, fault := none }
  | (.error fault, report) => { e with report, fault := some fault }

/-- Makes one edit. -/
def apply (e : Editor) : Edit → Editor
  | .start width height => e.onMap fun _ => .ofSize width height
  | .seed seed => e.onMap fun m => { m with seed }
  | .area area => e.onMap fun m => { m with area }
  | .reseed seed => { e with source := .ofSeed seed }
  | .clear => e.onMap Map.cleared
  | .carveRect r => e.onMap fun m => m.carveRect r
  | .carvePath path => e.onMap fun m => { m with grid := m.grid.carve path }
  | .putTile p t => e.onMap fun m => { m with grid := m.grid.put p t }
  | .addRoom r => e.onMap fun m => m.addRoom r
  | .recordRoom room => e.onMap fun m => { m with rooms := m.rooms ++ [room] }
  | .dropLastRoom => e.onMap fun m => { m with rooms := m.rooms.dropLast }
  | .replaceRoom place room => e.onMap fun m => { m with rooms := m.rooms.set place room }
  | .recordCorridor c => e.onMap fun m => { m with corridors := m.corridors ++ [c] }
  | .connect first second => e.connect first second
  | .recordSize width height => e.onMap fun m => { m with grid := { m.grid with width, height } }
  | .keepLargest => e.onMap fun m => { m with grid := m.grid.keepLargest.1 }
  | .populate => e.onDraw (e.map.populate e.map.area)
  | .layOut algorithm => e.layOut algorithm
  | .generate seed a => e.generate seed a
  | .save => { e with saved := e.map }

/-- Makes edits one after the other. -/
def applyAll (e : Editor) (edits : List Edit) : Editor := edits.foldl apply e

end Editor
end Dungeon
