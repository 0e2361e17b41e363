import Dungeon.Clearance
import Dungeon.Map

/-!
# Chambers of a cave

The rooms of a cave are chambers: rectangles of floor around its most open points. A chamber grows
from its point one column or row at a time, right, down, left and up in turn, as long as the next
strip is free and the side is not longer than the clearance of the point allows. The free floor is
what no earlier chamber claims, and a chamber claims a ring around itself too.

A cave without any chamber has its first floor point as its only one.
-/

namespace Dungeon.Chambers

/-! ## Peaks -/

/-- A floor point that none of its neighbours on the floor exceeds in clearance. -/
structure Peak where
  point : Point
  clearance : Nat
  deriving DecidableEq, Repr

/-- The peaks of a grid, row by row. -/
def peaks (g : Grid) : List Peak :=
  let table := g.clearances
  g.points.filterMap fun p =>
    let c := g.clearanceAt table p
    let highest := p.neighbours8.all fun q => !g.isFloor q || decide (g.clearanceAt table q ≤ c)
    if g.isFloor p && highest then some ⟨p, c⟩ else none

/-- The peaks with the highest first, those of the same height row by row. -/
def ranked (ps : List Peak) : List Peak :=
  let top := ps.foldl (fun top p => max top p.clearance) 0
  (List.range (top + 1)).reverse.flatMap fun c => ps.filter fun p => p.clearance = c

/-! ## Growth -/

/-- The point is floor that no earlier chamber claims. -/
def isFree (g : Grid) (claimed : List Rect) (p : Point) : Bool :=
  g.isFloor p && claimed.all fun r => !r.contains p

/-- The four strips that a chamber may grow by. -/
inductive Side where
  | right
  | down
  | left
  | up
  deriving DecidableEq, Repr

namespace Side

/-- The strip beside a rectangle. -/
def strip (side : Side) (r : Rect) : Rect :=
  match side with
  | right => ⟨r.right, r.y, 1, r.h⟩
  | down => ⟨r.x, r.bottom, r.w, 1⟩
  | left => ⟨r.x - 1, r.y, 1, r.h⟩
  | up => ⟨r.x, r.y - 1, r.w, 1⟩

/-- The rectangle together with the strip. -/
def widen (side : Side) (r : Rect) : Rect :=
  match side with
  | right => { r with w := r.w + 1 }
  | down => { r with h := r.h + 1 }
  | left => { r with x := r.x - 1, w := r.w + 1 }
  | up => { r with y := r.y - 1, h := r.h + 1 }

/-- The length of the side that grows. -/
def extent (side : Side) (r : Rect) : Int :=
  match side with
  | right | left => r.w
  | down | up => r.h

end Side

/-- Grows by one strip, if the side may still grow and the strip is free. -/
def growSide (free : Point → Bool) (limit : Int) (r : Rect) (side : Side) : Rect :=
  if side.extent r < limit ∧ (side.strip r).points.all free then side.widen r else r

/-- Tries every side once. -/
def growOnce (free : Point → Bool) (limit : Int) (r : Rect) : Rect :=
  [Side.right, .down, .left, .up].foldl (growSide free limit) r

/-- Tries every side again and again until none grows. -/
def growFully (free : Point → Bool) (limit : Int) : Nat → Rect → Rect
  | 0, r => r
  | rounds + 1, r =>
      let next := growOnce free limit r
      if next = r then r else growFully free limit rounds next

/-- The longest side of a chamber around a peak. -/
def longestSide (peak : Peak) : Nat := 2 * peak.clearance + 1

/-- The chamber around a peak. Every round but the last lengthens a side. -/
def grow (free : Point → Bool) (peak : Peak) : Rect :=
  let limit := longestSide peak
  growFully free limit (2 * limit) ⟨peak.point.x, peak.point.y, 1, 1⟩

/-! ## Chambers -/

/-- What the chambers claim: themselves and the ring around them. -/
def claims (p : CavernParams) (chambers : List Rect) : List Rect :=
  chambers.map fun r => r.grow p.roomPadding

/-- Adds the chamber around a peak, if there may be more, the peak is free and the chamber is large
enough. -/
def addChamber (g : Grid) (p : CavernParams) (chambers : List Rect) (peak : Peak) : List Rect :=
  if p.maxRooms ≤ chambers.length then chambers
  else
    let free := isFree g (claims p chambers)
    if free peak.point then
      let r := grow free peak
      if p.minRoom ≤ r.w ∧ p.minRoom ≤ r.h then chambers ++ [r] else chambers
    else chambers

/-- The chambers around the peaks, the most open first. -/
def grown (g : Grid) (p : CavernParams) : List Rect :=
  (ranked (peaks g)).foldl (addChamber g p) []

/-- The chambers of a cave. -/
def ofGrid (g : Grid) (p : CavernParams) : List Rect :=
  match grown g p with
  | [] => ((g.points.find? fun q => g.isFloor q).map fun q => ⟨q.x, q.y, 1, 1⟩).toList
  | chambers => chambers

end Dungeon.Chambers
