/-!
# Points, rectangles and bent paths

Coordinates are whole numbers, `x` to the right and `y` down. A rectangle is half-open: it holds
the points from its corner up to but not including `right` and `bottom`.
-/

namespace Dungeon

/-- The nearest number between `lo` and `hi`. With `hi < lo` it is one of the two. -/
def clamp (lo hi v : Int) : Int := if v < lo then lo else if hi < v then hi else v

/-! ## Points -/

structure Point where
  x : Int
  y : Int
  deriving DecidableEq, Repr, Inhabited

namespace Point

/-- The number of steps between two points, moving along the axes. -/
def manhattan (p q : Point) : Nat := (p.x - q.x).natAbs + (p.y - q.y).natAbs

/-- The number of steps between two points, moving diagonally too. -/
def chebyshev (p q : Point) : Nat := max (p.x - q.x).natAbs (p.y - q.y).natAbs

/-- The square of the straight distance. -/
def distSq (p q : Point) : Int :=
  let dx := p.x - q.x
  let dy := p.y - q.y
  dx * dx + dy * dy

/-- The points one step away along an axis. -/
def neighbours4 (p : Point) : List Point :=
  [⟨p.x + 1, p.y⟩, ⟨p.x - 1, p.y⟩, ⟨p.x, p.y + 1⟩, ⟨p.x, p.y - 1⟩]

/-- The points one step away along an axis or a diagonal. -/
def neighbours8 (p : Point) : List Point :=
  [⟨p.x - 1, p.y - 1⟩, ⟨p.x, p.y - 1⟩, ⟨p.x + 1, p.y - 1⟩,
   ⟨p.x - 1, p.y⟩, ⟨p.x + 1, p.y⟩,
   ⟨p.x - 1, p.y + 1⟩, ⟨p.x, p.y + 1⟩, ⟨p.x + 1, p.y + 1⟩]

end Point

/-! ## Ranges -/

/-- The `n` whole numbers from `lo` on. -/
def span (lo n : Int) : List Int := (List.range n.toNat).map fun (k : Nat) => lo + k

/-- The whole numbers from `a` towards `b`, without `a` and with `b`. -/
def towards (a b : Int) : List Int :=
  (List.range (b - a).natAbs).map fun (k : Nat) => a + (b - a).sign * (k + 1)

/-! ## Rectangles -/

structure Rect where
  x : Int
  y : Int
  w : Int
  h : Int
  deriving DecidableEq, Repr, Inhabited

namespace Rect

/-- The first column to the right of the rectangle. -/
def right (r : Rect) : Int := r.x + r.w

/-- The first row below the rectangle. -/
def bottom (r : Rect) : Int := r.y + r.h

/-- The middle point; of two middle columns or rows the later one. Half a negative side is rounded
toward zero. -/
def center (r : Rect) : Point := ⟨r.x + r.w.tdiv 2, r.y + r.h.tdiv 2⟩

def area (r : Rect) : Int := r.w * r.h

def contains (r : Rect) (p : Point) : Bool :=
  decide (r.x ≤ p.x ∧ p.x < r.right ∧ r.y ≤ p.y ∧ p.y < r.bottom)

/-- The rectangle with `n` columns and rows more on every side. -/
def grow (r : Rect) (n : Int) : Rect := ⟨r.x - n, r.y - n, r.w + 2 * n, r.h + 2 * n⟩

/-- The first rectangle, grown by `padding` on every side, overlaps the second. Rectangles that do
not meet have at least `padding` columns or rows between them. -/
def meets (r other : Rect) (padding : Int) : Bool :=
  decide (r.x - padding < other.right ∧ other.x < r.right + padding ∧
    r.y - padding < other.bottom ∧ other.y < r.bottom + padding)

/-- The part of a rectangle inside another. -/
def inside (r frame : Rect) : Rect :=
  let x := max r.x frame.x
  let y := max r.y frame.y
  ⟨x, y, min r.right frame.right - x, min r.bottom frame.bottom - y⟩

/-- The points of the rectangle, row by row. -/
def points (r : Rect) : List Point :=
  (span r.y r.h).flatMap fun y => (span r.x r.w).map fun x => ⟨x, y⟩

end Rect

/-! ## Bent paths -/

/-- Along which axis a bent path starts. -/
inductive Bend where
  | horizontal
  | vertical
  deriving DecidableEq, Repr

/-- The points from `a` to `b`, both included, along one axis first and then along the other. -/
def Bend.path (bend : Bend) (a b : Point) : List Point :=
  match bend with
  | .horizontal =>
      a :: ((towards a.x b.x).map fun x => ⟨x, a.y⟩) ++ (towards a.y b.y).map fun y => ⟨b.x, y⟩
  | .vertical =>
      a :: ((towards a.y b.y).map fun y => ⟨a.x, y⟩) ++ (towards a.x b.x).map fun x => ⟨x, b.y⟩

end Dungeon
