import Dungeon.Number.Printer
import Dungeon.Number.Reader
import Dungeon.Template.Field

/-!
# Settings files

A settings file changes a template. Every line is read on its own: it is blank, or it assigns a
value to a key, or there is a complaint about it. What an accepted line means is a `Setting`, which
does not depend on the template, so the complaints do not either.

The last accepted theme of the file resets the template; the other settings are applied after that,
in file order. Complaints are listed by kind, each kind in file order, up to a limit.
-/

namespace Dungeon

open Text (byte)

/-- What an accepted line asks for. -/
inductive Setting where
  | theme (t : Theme)
  | name (n : Text)
  | algorithm (l : Algorithm)
  | int (field : IntField) (n : Int)
  | number (field : NumberField) (x : Number.Single)
  deriving DecidableEq, Repr

/-- Why a line is not accepted. -/
inductive LineFault where
  | noAssignment
  | emptyKey
  | unknownTheme (value : Text)
  | emptyName
  | unknownAlgorithm (value : Text)
  | invalidInt (key : Text)
  | invalidNumber (key : Text)
  | unknownKey (key : Text)
  deriving DecidableEq, Repr

namespace LineFault

def message : LineFault → Text
  | noAssignment => "Expected key=value"
  | emptyKey => "Empty key"
  | unknownTheme value => "Unknown theme: " ++ value
  | emptyName => "Empty name"
  | unknownAlgorithm value => "Unknown algorithm: " ++ value
  | invalidInt key => "Invalid int for " ++ key
  | invalidNumber key => "Invalid number for " ++ key
  | unknownKey key => "Unknown key: " ++ key

/-- The kinds of complaint, in the order in which they are listed. -/
inductive Kind where
  | form
  | theme
  | value
  deriving DecidableEq, Repr

def kind : LineFault → Kind
  | noAssignment | emptyKey => .form
  | unknownTheme _ => .theme
  | _ => .value

end LineFault

namespace Settings

/-! ## Lines -/

/-- The mark that some editors put in front of a file. -/
def mark : Text := [0xEF, 0xBB, 0xBF]

/-- The bytes that start a comment. -/
def startsComment (c : UInt8) : Bool := c == byte '#' || c == byte ';'

/-- A line without a leading mark, without its comment and without blanks around the rest. -/
def content (line : Text) : Text :=
  Text.trim (Text.before startsComment ((Text.after? mark line).getD line))

/-- What the assignment of a value to a key means. -/
def assign (key value : Text) : Except LineFault Setting :=
  if key = Text.lit "theme" then
    match Theme.ofName? value with
    | some t => .ok (.theme t)
    | none => .error (.unknownTheme value)
  else if key = Text.lit "name" then
    if value = [] then .error .emptyName else .ok (.name value)
  else if key = Text.lit "algorithm" then
    match Algorithm.ofName? value with
    | some l => .ok (.algorithm l)
    | none => .error (.unknownAlgorithm value)
  else
    match IntField.ofKey? key, NumberField.ofKey? key with
    | some field, _ =>
        match Text.readInt32? value with
        | some n => .ok (.int field n)
        | none => .error (.invalidInt key)
    | none, some field =>
        match Number.Binary.read? Number.single value with
        | some x => .ok (.number field x)
        | none => .error (.invalidNumber key)
    | none, none => .error (.unknownKey key)

/-- What a line means, if it is not blank. -/
def readLine (line : Text) : Option (Except LineFault Setting) :=
  match content line with
  | [] => none
  | c :: rest =>
      match Text.splitAt? (byte '=') (c :: rest) with
      | none => some (.error .noAssignment)
      | some (before, after) =>
          match Text.lower (Text.trim before) with
          | [] => some (.error .emptyKey)
          | k :: key => some (assign (k :: key) (Text.trim after))

/-! ## Files -/

/-- The lines of a file that are not blank, with their numbers counted from 1. -/
def readLines (file : Text) : List (Nat × Except LineFault Setting) :=
  ((Text.lines file).zipIdx 1).filterMap fun (line, number) =>
    (readLine line).map fun outcome => (number, outcome)

/-- The accepted settings, in file order. -/
def accepted (file : Text) : List Setting :=
  (readLines file).filterMap fun (_, outcome) => outcome.toOption

/-- The rejected lines, in file order. -/
def rejected (file : Text) : List (Nat × LineFault) :=
  (readLines file).filterMap fun (number, outcome) =>
    match outcome with
    | .ok _ => none
    | .error fault => some (number, fault)

/-- The theme that the file asks for last. -/
def lastTheme? (settings : List Setting) : Option Theme :=
  settings.reverse.findSome? fun
    | .theme t => some t
    | _ => none

/-- One setting applied to a template. Themes are applied before all others. -/
def apply (a : Template) : Setting → Template
  | .theme _ => a
  | .name n => { a with name := n }
  | .algorithm l => { a with algorithm := l }
  | .int field n => field.set n a
  | .number field x => field.set x a

/-- The template that a file makes of a template. -/
def load (file : Text) (a : Template) : Template :=
  let settings := accepted file
  let start :=
    match lastTheme? settings with
    | some t => Template.ofTheme t
    | none => a
  settings.foldl apply start

/-! ## Complaints -/

/-- How many complaints are written out. -/
def complaintLimit : Nat := 30

/-- The rejected lines in the order in which they are listed. -/
def listed (file : Text) : List (Nat × LineFault) :=
  let ofKind (k : LineFault.Kind) := (rejected file).filter fun entry => entry.2.kind = k
  ofKind .form ++ ofKind .theme ++ ofKind .value

/-- The line about one rejected line. -/
def complaint (entry : Nat × LineFault) : Text :=
  "Line " ++ Text.ofNat entry.1 ++ ": " ++ entry.2.message ++ [Text.newline]

/-- The complaints about a file; past the limit one line stands for the rest. -/
def complaints (file : Text) : Text :=
  let entries := listed file
  (entries.take complaintLimit).flatMap complaint ++
    if complaintLimit < entries.length then "(more warnings omitted...)\n" else ""

/-- What is said about a file that cannot be opened. -/
def cannotOpen (path : Text) : Text := "Could not open template file: " ++ path

/-- What comes of loading a file: whether it could be opened, the template it makes, and what is
said about it. -/
structure Loading where
  opened : Bool
  template : Template
  messages : Text
  deriving DecidableEq, Repr

/-- Loads the file at a path, given what was read there, if it could be opened. -/
def loadFrom (path : Text) (read : Option Text) (a : Template) : Loading :=
  match read with
  | none => ⟨false, a, cannotOpen path⟩
  | some file => ⟨true, load file a, complaints file⟩

/-! ## The default file -/

/-- A line that sets a whole-number field to its value in a template. -/
def intLine (a : Template) (field : IntField) : Text :=
  field.key ++ " = " ++ Text.ofInt (field.get a) ++ [Text.newline]

/-- A line that sets a fractional field to its value in a template. -/
def numberLine (a : Template) (field : NumberField) : Text :=
  field.key ++ " = " ++ (field.get a).toText ++ [Text.newline]

/-- What stands at the head of the default file. -/
def defaultHead : List Text :=
  ["# DelveGen area template\n",
   "#\n",
   "# Lines are: key = value\n",
   "# Comments start with # or ;\n",
   "#\n",
   "# theme resets every other value to the catalog defaults for that theme,\n",
   "# then the remaining keys in this file override them.\n",
   "# themes: dungeon cave forest ruins castle temple sewers underground_city\n"]

/-- The lines about what a template says whatever the layout. -/
def commonPart (a : Template) : List Text :=
  ["theme = " ++ a.theme.info.id ++ "\n",
   "name = " ++ a.name ++ "\n\n",
   "# algorithm: bsp | cellular | simple_random\n",
   "algorithm = " ++ a.algorithm.id ++ "\n",
   "# width / height: 8..512\n",
   intLine a .width,
   intLine a .height,
   "\n# Expected features per 16 floor tiles of a room (0..1).\n",
   numberLine a .monsterDensity,
   numberLine a .treasureDensity,
   numberLine a .trapDensity,
   intLine a .level]

/-- The lines about the partition. -/
def partitionPart (a : Template) : List Text :=
  ["\n# Binary space partition\n",
   intLine a .partitionMinLeaf,
   intLine a .partitionMaxDepth,
   intLine a .partitionMinRoom,
   intLine a .partitionPadding,
   intLine a .partitionMinRooms]

/-- The lines about caves. -/
def cavernPart (a : Template) : List Text :=
  ["\n# Cellular automata caverns\n",
   numberLine a .cavernFill,
   intLine a .cavernSmoothings,
   intLine a .cavernThreshold,
   "# min_playable_area: 0 = width * height / 8\n",
   intLine a .cavernMinArea,
   intLine a .cavernMaxRetries,
   intLine a .cavernMinRoom,
   intLine a .cavernMaxRooms,
   intLine a .cavernRoomPadding]

/-- The lines about scattered rooms. -/
def scatterPart (a : Template) : List Text :=
  ["\n# Simple random placement\n",
   intLine a .scatterTargetRooms,
   intLine a .scatterMinRoom,
   "# max_room_size: 0 = max(min_room_size, min(width, height) / 3)\n",
   intLine a .scatterMaxRoom,
   intLine a .scatterPadding,
   intLine a .scatterAttempts]

/-- A commented file that sets every field as the catalogue does for the first theme. -/
def defaultFile : Text :=
  let a := Template.ofTheme .dungeon
  (defaultHead ++ commonPart a ++ partitionPart a ++ cavernPart a ++ scatterPart a).flatten

end Settings
end Dungeon
