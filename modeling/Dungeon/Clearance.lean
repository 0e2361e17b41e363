import Dungeon.Grid

/-!
# Clearance

The clearance of a floor point is the number of steps, along axes or diagonals, to the nearest point
that is not floor; the outside of the grid counts as such a point. Other points have none.

Clearance spreads in waves: the points first met by wave `n + 1` are those beside wave `n`. The
first wave is everything that is not floor, with the ring of points just outside.
-/

namespace Dungeon.Grid

/-- The steps at which each point was met, if it was. -/
abbrev Distances := Array (Option Nat)

/-- The ring of points just outside the grid. -/
def ring (g : Grid) : List Point :=
  let across := span (-1) (g.width + 2)
  let down := span 0 g.height
  across.map (fun x => ⟨x, -1⟩) ++ across.map (fun x => ⟨x, g.height⟩)
    ++ down.map (fun y => ⟨-1, y⟩) ++ down.map (fun y => ⟨g.width, y⟩)

/-- A wave that grows, with the distances met so far. -/
structure Wave where
  front : List Point
  met : Distances

/-- Adds a point to the wave unless it lies outside or was met before. -/
def Wave.meetPoint (g : Grid) (distance : Nat) : Wave → Point → Wave
  | ⟨front, met⟩, p =>
      if g.inBounds p && (met.getD (g.index p) none).isNone then
        ⟨p :: front, met.setIfInBounds (g.index p) (some distance)⟩
      else ⟨front, met⟩

/-- The wave after a wave. -/
def Wave.next (g : Grid) (distance : Nat) : Wave → Wave
  | ⟨front, met⟩ =>
      front.foldl (fun next p => p.neighbours8.foldl (Wave.meetPoint g distance) next) ⟨[], met⟩

/-- Waves until one is empty, or the steps are used up. -/
def spread (g : Grid) : Nat → Nat → Wave → Distances
  | 0, _, w => w.met
  | steps + 1, distance, w =>
      if w.front.isEmpty then w.met else spread g steps (distance + 1) (w.next g distance)

/-- The first wave: what is not floor, and the ring outside. -/
def firstWave (g : Grid) : Wave :=
  let closed := g.points.filter fun p => !g.isFloor p
  ⟨closed ++ g.ring,
    closed.foldl (fun met p => met.setIfInBounds (g.index p) (some 0))
      (Array.replicate g.tiles.size none)⟩

/-- The clearance of every point. Each wave but the last meets a point, so the number of tiles
bounds them. -/
def clearances (g : Grid) : Distances := g.spread (g.tiles.size + 1) 1 g.firstWave

/-- The clearance of a point in the table of clearances. -/
def clearanceAt (g : Grid) (table : Distances) (p : Point) : Nat :=
  (table.getD (g.index p) none).getD 0

end Dungeon.Grid
