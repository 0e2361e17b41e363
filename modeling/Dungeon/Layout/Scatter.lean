import Dungeon.Layout.Basic

/-!
# Scattered rooms

Candidates are drawn one after the other, with a border of one tile around the map. One that comes
too close to an earlier room is dropped; others are placed and joined to the room before them. The
layout never fails: when the attempts are used up, it warns and keeps the rooms that were placed.
-/

namespace Dungeon

namespace Scatter

/-- The rooms and corridors placed so far, and the attempts made. -/
structure Placement where
  rooms : List Room := []
  corridors : List Corridor := []
  attempts : Nat := 0
  deriving DecidableEq, Repr

/-- A candidate inside the border. -/
def drawCandidate (p : ScatterParams) (width height : Int) : Draw Rect := do
  let side := p.greatestSide width height
  let w ← Draw.between p.minRoom (min side (width - 2))
  let h ← Draw.between p.minRoom (min side (height - 2))
  let x ← Draw.between 1 (width - w - 1)
  let y ← Draw.between 1 (height - h - 1)
  pure ⟨x, y, w, h⟩

namespace Placement

/-- The candidate comes too close to a placed room. -/
def blocks (s : Placement) (padding : Int) (candidate : Rect) : Bool :=
  s.rooms.any fun r => candidate.meets r.toRect padding

/-- Places a candidate and joins it to the room before it. -/
def place (s : Placement) (candidate : Rect) : Draw Placement := do
  let room := Room.ofRect s.rooms.length candidate
  let rooms := s.rooms ++ [room]
  match s.rooms.getLast? with
  | none => pure { s with rooms }
  | some previous => do
      let c ← Corridor.draw previous room
      pure { s with rooms, corridors := s.corridors ++ [c] }

/-- One attempt. -/
def tryOnce (p : ScatterParams) (width height : Int) (s : Placement) : Draw Placement := do
  let candidate ← drawCandidate p width height
  let s := { s with attempts := s.attempts + 1 }
  if s.blocks p.padding candidate then pure s else s.place candidate

end Placement

/-- Up to so many attempts, until the target is reached. -/
def draw (p : ScatterParams) (width height : Int) : Nat → Placement → Draw Placement
  | 0, s => pure s
  | n + 1, s =>
      if p.targetRooms ≤ s.rooms.length then pure s
      else do
        let s ← s.tryOnce p width height
        draw p width height n s

/-- The attempts that there are for all rooms together. -/
def budget (p : ScatterParams) : Nat := (p.targetRooms * p.attemptsPerRoom).toNat

/-- The warning about a placement that misses the target. -/
def shortfall (p : ScatterParams) (s : Placement) : List Warning :=
  if (s.rooms.length : Int) < p.targetRooms then
    [.fewRooms s.rooms.length p.targetRooms s.attempts]
  else []

end Scatter

/-- Lays out a map with scattered rooms. -/
def Layout.scatter (p : ScatterParams) (m : Map) (report : Report) : Draw LayoutResult := do
  let s ← Scatter.draw p m.grid.width m.grid.height (Scatter.budget p) {}
  let warnings := report.warnings ++ Scatter.shortfall p s
  pure { map := m.ofPlan s.rooms s.corridors,
         report := { report with roomsRequested := p.targetRooms, warnings } }

end Dungeon
