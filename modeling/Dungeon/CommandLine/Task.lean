import Dungeon.Disk

/-!
# Tasks

A task reads and writes files and ends with a result: an exit code and what is printed. It is a tree
of its requests to the disk and of its answers to what comes back, so that the same task can be run
on a disk that is a value and on the one of the machine.

A file that can be opened for writing takes all that is written to it. That a disk is full, or fails
in another way after that, is left out.
-/

namespace Dungeon.CommandLine

/-- How a task ends. -/
structure Result where
  code : UInt8 := 0
  out : Text := []
  err : Text := []
  deriving DecidableEq, Repr

inductive Task where
  | done (result : Result)
  /-- Reads the file at a path, which may be impossible to open. -/
  | read (path : Text) (next : Option Text → Task)
  /-- Writes a file at a path, and goes on with whether it could be opened. -/
  | write (path content : Text) (next : Bool → Task)

namespace Task

/-- Runs a task on a disk. -/
def run : Task → Disk → Result × Disk
  | .done result, d => (result, d)
  | .read path next, d => (next (d.read? path)).run d
  | .write path content next, d =>
      match d.write? path content with
      | some d => (next true).run d
      | none => (next false).run d

end Task
end Dungeon.CommandLine
