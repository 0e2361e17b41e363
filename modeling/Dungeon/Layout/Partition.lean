import Dungeon.Layout.Basic

/-!
# Binary partitions

The map is cut in two, and each part again, until the depth is used up or a part is too small to be
cut. Every leaf gets one room, and every cut gets one corridor, between the closest rooms of its two
sides.

Draws are made side by side with the recursion: the cut, then the first part, then the second part,
then the bend of the corridor.
-/

namespace Dungeon

/-- A partition with the rooms of its leaves and the corridors of its cuts. -/
inductive Partition where
  | leaf (room : Room)
  | cut (first second : Partition) (corridor : Option Corridor)
  deriving Repr

namespace Partition

/-- The rooms, first parts before second parts. -/
def rooms : Partition → List Room
  | leaf room => [room]
  | cut first second _ => first.rooms ++ second.rooms

/-- The corridors, those of the parts before that of their cut. -/
def corridors : Partition → List Corridor
  | leaf _ => []
  | cut first second corridor => first.corridors ++ second.corridors ++ corridor.toList

def leafCount : Partition → Nat
  | leaf _ => 1
  | cut first second _ => first.leafCount + second.leafCount

/-! ## The closest rooms -/

/-- Two rooms and the square of the distance of their centers. -/
structure Link where
  first : Room
  second : Room
  distance : Int

def Link.ofRooms (a b : Room) : Link := ⟨a, b, a.center.distSq b.center⟩

/-- The shorter of two links, the earlier one if they are as long. -/
def Link.shorter (best : Option Link) (l : Link) : Option Link :=
  match best with
  | none => some l
  | some old => if l.distance < old.distance then some l else some old

/-- The shortest link between rooms of two lists. Of several it is the one with the earliest room
of the first list, and then of the second. -/
def closest? (as bs : List Room) : Option Link :=
  as.foldl (fun best a => bs.foldl (fun best b => Link.shorter best (.ofRooms a b)) best) none

/-! ## Cutting -/

/-- The two ways to cut a rectangle. -/
inductive Axis where
  /-- A first part on the left and a second part on the right. -/
  | columns
  /-- A first part above and a second part below. -/
  | rows
  deriving DecidableEq, Repr

namespace Axis

/-- The length that is cut. -/
def extent (axis : Axis) (r : Rect) : Int :=
  match axis with
  | columns => r.w
  | rows => r.h

/-- The two parts when the first one has a length. -/
def split (axis : Axis) (r : Rect) (length : Int) : Rect × Rect :=
  match axis with
  | columns => (⟨r.x, r.y, length, r.h⟩, ⟨r.x + length, r.y, r.w - length, r.h⟩)
  | rows => (⟨r.x, r.y, r.w, length⟩, ⟨r.x, r.y + length, r.w, r.h - length⟩)

/-- Both parts can be leaves. -/
def canCut (axis : Axis) (minLeaf : Int) (r : Rect) : Bool := decide (minLeaf * 2 ≤ axis.extent r)

def other : Axis → Axis
  | columns => rows
  | rows => columns

/-- The axis, or the other one if its parts would be too small for leaves. -/
def orOther (axis : Axis) (minLeaf : Int) (r : Rect) : Axis :=
  if axis.canCut minLeaf r then axis else axis.other

end Axis

/-- The axis that cuts across the longer side, drawn by lot if there is none. -/
def drawWantedAxis (r : Rect) : Draw Axis :=
  if r.h < r.w then pure .columns
  else if r.w < r.h then pure .rows
  else do
    let rows ← Draw.chance (.round Number.double false 1 2)
    pure (if rows then .rows else .columns)

/-- The cut goes across the longer side, and across the other side if that one is too short. -/
def drawAxis (minLeaf : Int) (r : Rect) : Draw Axis := do
  let wanted ← drawWantedAxis r
  pure (wanted.orOther minLeaf r)

/-- A room inside a leaf, with the margin on every side. -/
def drawRoom (p : PartitionParams) (id : Nat) (leaf : Rect) : Draw Room := do
  let m := p.margin
  let w ← Draw.between p.minRoom (leaf.w - 2 * m)
  let h ← Draw.between p.minRoom (leaf.h - 2 * m)
  let x ← Draw.between (leaf.x + m) (leaf.x + leaf.w - m - w)
  let y ← Draw.between (leaf.y + m) (leaf.y + leaf.h - m - h)
  pure (Room.ofRect id ⟨x, y, w, h⟩)

/-- The corridor between the closest rooms of two parts. -/
def drawCorridor (first second : Partition) : Draw (Option Corridor) :=
  match closest? first.rooms second.rooms with
  | none => pure none
  | some link => do
      let c ← Corridor.draw link.first link.second
      pure (some c)

/-- Partitions a rectangle as far as the depth allows. Its rooms are numbered from `id` on. -/
def draw (p : PartitionParams) : Nat → Nat → Rect → Draw Partition
  | 0, id, r => do
      let room ← drawRoom p id r
      pure (leaf room)
  | depth + 1, id, r =>
      if Axis.rows.canCut p.minLeaf r || Axis.columns.canCut p.minLeaf r then do
        let axis ← drawAxis p.minLeaf r
        let length ← Draw.between p.minLeaf (axis.extent r - p.minLeaf)
        let parts := axis.split r length
        let first ← draw p depth id parts.1
        let second ← draw p depth (id + first.leafCount) parts.2
        let corridor ← drawCorridor first second
        pure (cut first second corridor)
      else do
        let room ← drawRoom p id r
        pure (leaf room)

end Partition

/-- Lays out a map as a partition. It fails when the depth leaves too few rooms. -/
def Layout.partition (p : PartitionParams) (m : Map) (report : Report) : Draw LayoutResult := do
  let tree ← Partition.draw p p.maxDepth.toNat 0 m.grid.frame
  let map := m.ofPlan tree.rooms tree.corridors
  let report := { report with leaves := tree.leafCount }
  let rooms := tree.rooms.length
  pure (if (rooms : Int) < p.minRooms then
      .failed map report (.tooFewRooms p.maxDepth rooms p.minRooms)
    else { map, report })

end Dungeon
