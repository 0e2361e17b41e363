import Dungeon.Map

/-!
# Maps as pictures

A picture of a map has a character for every tile, a line for every row. The centers of the entrance
and of the lair are marked, where they lie inside; of two marks on one point the later room's is
seen.
-/

namespace Dungeon

open Text (byte)

/-- The character of a tile. -/
def Tile.glyph : Tile → UInt8
  | .floor => byte '.'
  | .door => byte '+'
  | _ => byte '#'

/-- The mark of a role, if it has one. -/
def RoomKind.mark? : RoomKind → Option UInt8
  | .spawnBoss => some (byte 'X')
  | .spawn => some (byte 'S')
  | .boss => some (byte 'B')
  | .normal | .unlisted _ => none

namespace Map

/-- The mark of a room written over its center. -/
def markRoom (g : Grid) (glyphs : Array UInt8) (r : Room) : Array UInt8 :=
  match r.kind.mark? with
  | some mark =>
      if g.inBounds r.center then glyphs.setIfInBounds (g.index r.center) mark else glyphs
  | none => glyphs

/-- The characters of a map, row by row. -/
def glyphs (m : Map) : Array UInt8 :=
  m.rooms.foldl (markRoom m.grid) ((m.grid.points.map fun p => (m.grid.tileAt p).glyph).toArray)

/-- The lines of the picture of a map. -/
def pictureRows (m : Map) : List Text :=
  let all := m.glyphs
  (span 0 m.grid.height).map fun y =>
    (span 0 m.grid.width).map fun x => all.getD (m.grid.index ⟨x, y⟩) (byte '#')

/-- The picture of a map. -/
def picture (m : Map) : Text := Text.unlines m.pictureRows

end Map
end Dungeon
