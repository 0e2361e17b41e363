import Dungeon.Layout.Cavern
import Dungeon.Layout.Partition
import Dungeon.Layout.Scatter
import Dungeon.Populate

/-!
# Generating maps

A generation checks the template, lays out a map of its size with the random source of the seed and
populates the rooms. It gives the map or the fault that stopped it, and a fresh report.
-/

namespace Dungeon

/-- Runs the layout that a template asks for. -/
def Layout.run (a : Template) (m : Map) (report : Report) : Draw LayoutResult :=
  match a.algorithm with
  | .partition => Layout.partition a.partition m report
  | .cavern => Layout.cavern a.cavern m report
  | .scatter => Layout.scatter a.scatter m report
  | .unlisted _ => pure (.failed m report (.badTemplate .unknownAlgorithm))

/-- Lays out a map and populates it, unless the layout fails. -/
def layAndPopulate (a : Template) (m : Map) : Draw (Except Fault Map × Report) := do
  let laid ← Layout.run a m {}
  match laid.fault with
  | some fault => pure (.error fault, laid.report)
  | none => do
      let map ← laid.map.populate a
      pure (.ok map, laid.report)

/-- The map of wall that a template is laid out on. -/
def Map.blank (seed : UInt32) (a : Template) : Map :=
  { Map.ofSize a.width a.height with seed, area := a }

/-- The map that a seed and a template give, and the report on it. -/
def generate (seed : UInt32) (a : Template) : Except Fault Map × Report :=
  match a.fault? with
  | some fault =>
      let fault := Fault.badTemplate fault
      (.error fault, { failure := some fault.failure })
  | none => ((layAndPopulate a (Map.blank seed a)).run (Source.ofSeed seed)).1

/-- What a caller hands over for a generation to fill in: a map, a report and a message. They may
hold anything before. -/
structure Handover where
  map : Map := {}
  report : Report := {}
  message : Text := []
  deriving DecidableEq, Repr

/-- Generates into what is handed over, and tells whether that succeeded. The report is always a new
one; only a success replaces the map, and only a failure replaces the message. -/
def Handover.generate (h : Handover) (seed : UInt32) (a : Template) : Bool × Handover :=
  match Dungeon.generate seed a with
  | (.ok map, report) => (true, { h with map, report })
  | (.error fault, report) => (false, { h with report, message := fault.message })

end Dungeon
