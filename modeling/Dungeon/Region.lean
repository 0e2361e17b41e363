import Dungeon.Grid

/-!
# Regions

Two floor points belong to the same region when steps along the axes join them without leaving the
floor. A region is found by a search that marks a point when it first meets it: every point enters
the frontier at most once, so the number of tiles bounds the steps.
-/

namespace Dungeon.Grid

/-- One mark for every tile. -/
abbrev Marks := Array Bool

def unmarked (g : Grid) : Marks := Array.replicate g.tiles.size false

def isMarked (g : Grid) (marks : Marks) (p : Point) : Bool := marks.getD (g.index p) false

/-- The marks with these points marked too. -/
def mark (g : Grid) (marks : Marks) (points : List Point) : Marks :=
  points.foldl (fun marks p => marks.setIfInBounds (g.index p) true) marks

/-- The floor points beside a point that are not marked yet. -/
def fresh (g : Grid) (marks : Marks) (p : Point) : List Point :=
  p.neighbours4.filter fun q => g.isFloor q && !g.isMarked marks q

/-- Visits the points of the frontier and all that are fresh beside them. Gives the marks and the
visited points. -/
def explore (g : Grid) : Nat → List Point → Marks → List Point → Marks × List Point
  | 0, _, marks, visited => (marks, visited)
  | _ + 1, [], marks, visited => (marks, visited)
  | steps + 1, p :: frontier, marks, visited =>
      let new := g.fresh marks p
      explore g steps (new ++ frontier) (g.mark marks new) (p :: visited)

/-- Explores the region of a floor point that is not marked yet. -/
def exploreFrom (g : Grid) (p : Point) (marks : Marks) : Marks × List Point :=
  g.explore (g.tiles.size + 1) [p] (g.mark marks [p]) []

/-- Marks on the region of a point, none if it is not floor. -/
def flood (g : Grid) (start : Point) : Marks :=
  if g.isFloor start then (g.exploreFrom start g.unmarked).1 else g.unmarked

/-! ## The largest region -/

/-- The marks so far and the largest region so far. -/
structure Survey where
  marks : Marks
  best : List Point
  size : Nat

/-- Takes the region of a point into account, unless it was before. Only a larger region replaces
the best. -/
def Survey.visit (g : Grid) : Survey → Point → Survey
  | ⟨marks, best, size⟩, p =>
      if g.isFloor p && !g.isMarked marks p then
        let (marks, region) := g.exploreFrom p marks
        if size < region.length then ⟨marks, region, region.length⟩ else ⟨marks, best, size⟩
      else ⟨marks, best, size⟩

/-- Every region is surveyed, in the order of their first points row by row. -/
def survey (g : Grid) : Survey := g.points.foldl (Survey.visit g) ⟨g.unmarked, [], 0⟩

/-- The grid with its floor turned into wall. -/
def withoutFloor (g : Grid) : Grid :=
  { g with tiles := g.tiles.map fun t => if t.isFloor then .wall else t }

/-- The grid with no floor but its largest region, and the size of that. Of regions of the same
size the one with the first point row by row is kept. Without a region nothing changes. -/
def keepLargest (g : Grid) : Grid × Nat :=
  let s := g.survey
  if s.size = 0 then (g, 0) else (g.withoutFloor.carve s.best, s.size)

end Dungeon.Grid
