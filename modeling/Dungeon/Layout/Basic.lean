import Dungeon.Map
import Dungeon.Report

/-!
# What a layout comes to

A layout is run on a map, whose earlier contents it clears, and on a report, to which it adds. It
leaves the map as far as it got, also when it fails.
-/

namespace Dungeon

structure LayoutResult where
  map : Map
  report : Report
  fault : Option Fault := none
  deriving DecidableEq, Repr

/-- The result of a layout that failed. The report says how. -/
def LayoutResult.failed (map : Map) (report : Report) (fault : Fault) : LayoutResult :=
  ⟨map, { report with failure := some fault.failure }, some fault⟩

end Dungeon
