import Dungeon.Map
import Dungeon.Number.Printer

/-!
# Maps as JSON

A map is written as one JSON object: its size, the tags of its tiles row by row, its rooms and
corridors in order, its seed, and what its template says whatever the layout. Names are written byte
for byte, with the bytes escaped that a string may not hold.
-/

namespace Dungeon.Json

open Text (byte)

/-! ## Strings -/

/-- The digit of a number below 16. -/
def hexDigit (n : Nat) : UInt8 := if n < 10 then Text.digitByte n else UInt8.ofNat (87 + n)

def quote : UInt8 := 34

def backslash : UInt8 := 92

/-- How a byte is written inside a string. -/
def escapeByte (c : UInt8) : Text :=
  if c = backslash then "\\\\"
  else if c = quote then "\\\""
  else if c = byte '\n' then "\\n"
  else if c = byte '\r' then "\\r"
  else if c = byte '\t' then "\\t"
  else if c < 32 then "\\u00" ++ [hexDigit (c.toNat / 16), hexDigit (c.toNat % 16)]
  else [c]

/-- How a text is written inside a string. -/
def escape (t : Text) : Text := t.flatMap escapeByte

/-- A text as a string. -/
def quoted (t : Text) : Text := [quote] ++ escape t ++ [quote]

/-! ## Parts of a map -/

def int (n : Int) : Text := Text.ofInt n

/-- A key and its value. -/
def member (key : String) (value : Text) : Text := quoted key ++ ": " ++ value

/-- Members inside braces, on one line. -/
def inlineObject (members : List Text) : Text :=
  "\x7b" ++ Text.join ", " members ++ "\x7d"

/-- Values inside brackets, on one line. -/
def inlineArray (values : List Text) : Text := "[" ++ Text.join ", " values ++ "]"

/-- Values inside brackets, a line for each. -/
def lineArray (values : List Text) : Text :=
  match values with
  | [] => "[\n  ]"
  | _ => "[\n    " ++ Text.join ",\n    " values ++ "\n  ]"

def point (p : Point) : Text := inlineArray [int p.x, int p.y]

def room (r : Room) : Text :=
  inlineObject
    [member "id" (int r.id), member "x" (int r.x), member "y" (int r.y), member "w" (int r.w),
     member "h" (int r.h), member "type" (quoted r.kind.tag), member "monsters" (int r.monsters),
     member "treasures" (int r.treasures), member "traps" (int r.traps)]

def corridor (c : Corridor) : Text :=
  inlineObject
    [member "room_a" (int c.roomA), member "room_b" (int c.roomB),
     member "path" (inlineArray (c.path.map point))]

/-- The tag of the tile on a point, with a comma unless it is the last of the grid. -/
def tile (g : Grid) (p : Point) : Text :=
  quoted (g.tileAt p).tag ++ if p.y + 1 < g.height ∨ p.x + 1 < g.width then "," else ""

/-- The tags of all tiles, a line for each row. -/
def tiles (g : Grid) : Text :=
  let row (y : Int) : Text :=
    "\n    " ++ (span 0 g.width).flatMap fun x => tile g ⟨x, y⟩
  "[" ++ (span 0 g.height).flatMap row ++ "\n  ]"

/-- An object with a line for each member, indented by so many blanks. -/
def lineObject (indent : Nat) (members : List Text) : Text :=
  let margin (n : Nat) : Text := List.replicate n (byte ' ')
  "\x7b\n" ++ margin (indent + 2) ++ Text.join (",\n" ++ margin (indent + 2)) members ++ "\n"
    ++ margin indent ++ "\x7d"

def template (a : Template) : Text :=
  lineObject 2
    [member "name" (quoted a.name), member "theme" (quoted a.theme.info.id),
     member "algorithm" (quoted a.algorithm.id), member "monster_density" a.monsterDensity.toText,
     member "treasure_density" a.treasureDensity.toText,
     member "trap_density" a.trapDensity.toText, member "recommended_level" (int a.level),
     member "width" (int a.width), member "height" (int a.height)]

/-- The JSON text of a map, with a newline at its end. -/
def ofMap (m : Map) : Text :=
  lineObject 0
    [member "width" (int m.grid.width), member "height" (int m.grid.height),
     member "tiles" (tiles m.grid), member "rooms" (lineArray (m.rooms.map room)),
     member "corridors" (lineArray (m.corridors.map corridor)),
     member "seed" (Text.ofNat m.seed.toNat), member "template" (template m.area)]
    ++ "\n"

end Dungeon.Json
