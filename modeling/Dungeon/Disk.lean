import Dungeon.Text

/-!
# Disks

A place on a disk is given by the names that lead to it from the root. A path leads to a place: it
starts at the root or at the home directory and goes on name by name, and only a directory can be
gone on from. Files and sinks lie at places; a sink takes everything that is written and gives
nothing to read. A directory exists as long as something lies in it, and some stand in any case.
-/

namespace Dungeon

open Text (byte)

/-! ## Paths -/

namespace Path

/-- The byte between names. -/
def slash : UInt8 := byte '/'

/-- The name stays where it is. -/
def stays (name : Text) : Bool := name = [] || name = Text.lit "."

/-- The name of the directory above. -/
def parent : Text := ".."

/-- The greatest length of a name. -/
def longestName : Nat := 255

/-- The greatest length of a path. -/
def longest : Nat := 4095

/-- The names of a path that lead on. -/
def names (path : Text) : List Text := (Text.split slash path).filter fun name => !stays name

/-- A path as it is shown: every run of slashes is one slash. -/
def shown : Text → Text
  | [] => []
  | [last] => [last]
  | a :: b :: rest =>
      if a = slash ∧ b = slash then shown (b :: rest) else a :: shown (b :: rest)

end Path

/-! ## Disks -/

/-- The names on the way from the root. -/
abbrev Place := List Text

/-- What lies on a disk. No two files lie at the same place. -/
structure Disk where
  /-- The directory that paths start at unless they start at the root. -/
  home : Place
  /-- The directories that stand even if nothing lies in them. -/
  directories : List Place := []
  sinks : List Place := []
  files : List (Place × Text) := []
  deriving DecidableEq, Repr

namespace Disk

/-- There is a directory at a place: it stands, it is on the way home, or something lies in it. -/
def hasDirectory (d : Disk) (place : Place) : Bool :=
  d.directories.contains place || place.isPrefixOf d.home
    || (d.sinks ++ d.files.map (·.1)).any fun other => place.isPrefixOf other && place != other

/-- Goes on from a place by one name. -/
def enter? (d : Disk) (place : Place) (name : Text) : Option Place :=
  if !d.hasDirectory place then none
  else if Path.stays name then some place
  else if name = Path.parent then some place.dropLast
  else if name.length ≤ Path.longestName then some (place ++ [name])
  else none

/-- The place that a path leads to, whether something lies there or not. -/
def resolve? (d : Disk) (path : Text) : Option Place :=
  if path = [] ∨ Path.longest < path.length then none
  else
    let start := if path.head? = some Path.slash then [] else d.home
    (Text.split Path.slash path).foldlM d.enter? start

/-- The content of the file at a place. -/
def find? (d : Disk) (place : Place) : Option Text :=
  (d.files.find? fun file => file.1 = place).map (·.2)

/-- Puts a file at a place, instead of the one that lies there, if any. -/
def put (d : Disk) (place : Place) (content : Text) : Disk :=
  { d with files := (d.files.filter fun file => file.1 ≠ place) ++ [(place, content)] }

/-- What is read at a path, if it can be opened. From a directory or a sink that is nothing. -/
def read? (d : Disk) (path : Text) : Option Text := do
  let place ← d.resolve? path
  if d.hasDirectory place || d.sinks.contains place then some [] else d.find? place

/-- The disk after writing a file at a path, if it can be opened. A directory cannot be, and what is
written to a sink is gone. -/
def write? (d : Disk) (path content : Text) : Option Disk := do
  let place ← d.resolve? path
  if d.hasDirectory place then none
  else if d.sinks.contains place then some d
  else some (d.put place content)

/-! ## Homes -/

/-- The directories at the root that usually stand. -/
def usualDirectories : List Text :=
  ["bin", "boot", "dev", "etc", "home", "lib", "media", "mnt", "opt", "proc", "root", "run", "sbin",
    "srv", "sys", "tmp", "usr", "var"]

/-- A disk with the usual directories, the usual sink and a home, and in that files at some paths. -/
def ofFiles (files : List (Text × Text)) : Disk :=
  let home : Place := ["tmp", "here"]
  { home, directories := usualDirectories.map ([·]), sinks := [["dev", "null"]],
    files := files.map fun (path, content) => (home ++ Path.names path, content) }

/-- The files at home, by their paths from there. -/
def homeFiles (d : Disk) : List (Text × Text) :=
  d.files.filterMap fun (place, content) =>
    if d.home.isPrefixOf place then
      some (Text.join [Path.slash] (place.drop d.home.length), content)
    else none

end Disk
end Dungeon
