import Dungeon.CommandLine

/-!
# The program

Runs the task of a command line on the disk of the machine.
-/

namespace Dungeon

/-- The bytes of a text as a string; bytes that are no UTF-8 make it empty. -/
def Text.toString (t : Text) : String := (String.fromUTF8? ⟨t.toArray⟩).getD ""

/-- The content of a file, if it can be opened. A directory can be, but nothing is read from it. -/
def readFile (path : Text) : IO (Option Text) := do
  try
    let content ← IO.FS.readBinFile path.toString
    return some content.toList
  catch
    | .inappropriateType .. => return some []
    | _ => return none

/-- Writes a file, if it can be opened. -/
def writeFile (path content : Text) : IO Bool := do
  try
    IO.FS.writeBinFile path.toString ⟨content.toArray⟩
    return true
  catch _ => return false

/-- Carries out a task on the disk of the machine and gives its exit code. -/
def CommandLine.Task.perform : CommandLine.Task → IO UInt32
  | .done result => do
      (← IO.getStdout).write ⟨result.out.toArray⟩
      (← IO.getStderr).write ⟨result.err.toArray⟩
      return result.code.toUInt32
  | .read path next => do (next (← readFile path)).perform
  | .write path content next => do (next (← writeFile path content)).perform

end Dungeon

def main (args : List String) : IO UInt32 :=
  (Dungeon.CommandLine.task (args.map Dungeon.Text.lit)).perform
