import Dungeon.Hash
import Dungeon.Layout.Basic
import Dungeon.Layout.Chambers
import Dungeon.Region

/-!
# Caves

A cave grows from noise: every tile starts as floor with a given probability, and then all tiles are
smoothed at once, some times over, by counting the floor around them. Of what remains the largest
region is the cave.

A cave that is too small is tried again. The first attempt draws from the given source; each retry
has a source of its own, made from the seed and the number of the retry. So an attempt does not
depend on the attempts before it.
-/

namespace Dungeon

namespace Cavern

/-! ## Noise and smoothing -/

/-- So many tiles, each floor for `threshold` of the `2 ^ 32` words. -/
def noiseTiles (threshold : Nat) : Nat → Array Tile → Draw (Array Tile)
  | 0, tiles => pure tiles
  | n + 1, tiles => do
      let floor ← Draw.below threshold
      noiseTiles threshold n (tiles.push (if floor then .floor else .wall))

/-- A grid of noise, drawn row by row. -/
def noise (fill : Number.Single) (width height : Int) : Draw Grid := do
  let threshold := (fill.convert Number.double).datum.wordsBelow
  let tiles ← noiseTiles threshold (width.toNat * height.toNat) #[]
  pure ⟨width, height, tiles⟩

/-- How many of the eight points around a point are floor. Points outside are not. -/
def floorAround (g : Grid) (p : Point) : Nat := p.neighbours8.countP fun q => g.isFloor q

/-- The tiles with enough floor around them become floor, all others wall. -/
def smoothOnce (threshold : Int) (g : Grid) : Grid :=
  .ofFloor g.width g.height fun p => decide (threshold ≤ floorAround g p)

def smooth (threshold : Int) : Nat → Grid → Grid
  | 0, g => g
  | times + 1, g => smooth threshold times (smoothOnce threshold g)

/-- The grid of an attempt before its largest region is taken. -/
def grow (p : CavernParams) (width height : Int) : Draw Grid := do
  let g ← noise p.fill width height
  pure (smooth p.threshold p.smoothings.toNat g)

/-! ## Attempts -/

/-- The source of an attempt. -/
def sourceOf (start : Source) (number : Nat) : Source :=
  if number = 0 then start
  else .ofSeed (Hash.combine₃ start.seed (Hash.tag "CAVERN") (UInt32.ofNat number))

/-- An attempt: its number, its cave, the area of that and the source after it. -/
structure Attempt where
  number : Nat
  grid : Grid
  area : Nat
  source : Source

/-- The attempt with a number. -/
def attempt (p : CavernParams) (width height : Int) (start : Source) (number : Nat) : Attempt :=
  let (g, source) := (grow p width height).run (sourceOf start number)
  let (grid, area) := g.keepLargest
  ⟨number, grid, area, source⟩

/-- The cave is not empty and large enough. -/
def Attempt.suffices (a : Attempt) (leastArea : Int) : Bool :=
  decide (0 < a.area ∧ leastArea ≤ a.area)

/-- How a search for a cave ends: with an attempt that suffices, or with the last attempt, if any,
and the greatest area met. -/
inductive Search where
  | found (a : Attempt)
  | exhausted (last : Option Attempt) (best : Nat)

/-- Makes up to so many attempts from a number on, until one suffices. -/
def search (make : Nat → Attempt) (leastArea : Int) :
    Nat → Nat → Option Attempt → Nat → Search
  | 0, _, last, best => .exhausted last best
  | n + 1, number, _, best =>
      let a := make number
      if a.suffices leastArea then .found a
      else search make leastArea n (number + 1) (some a) (max best a.area)

end Cavern

/-- The map and the report after an attempt. Tiles beyond the recorded size of the map are wall. -/
def Cavern.Attempt.record (a : Attempt) (m : Map) (report : Report) : Map × Report :=
  ({ m.cleared with grid := m.grid.filled.overlay a.grid.tiles },
    { report with attempts := a.number + 1 })

/-- What the end of a search leaves: the cave that was found and its rooms, or the last cave and
the fault. -/
def Cavern.Search.conclude (p : CavernParams) (m : Map) (report : Report) :
    Search → Draw LayoutResult
  | .found a => do
      set a.source
      let (map, report) := a.record m report
      pure { map := (Chambers.ofGrid a.grid p).foldl Map.addRoom map, report }
  | .exhausted last best => do
      let fault := Fault.noCave (p.leastArea m.grid.width m.grid.height) (p.maxRetries + 1) best
      match last with
      | none => pure (.failed m report fault)
      | some a =>
          set a.source
          let (map, report) := a.record m report
          pure (.failed map report fault)

open Cavern in
/-- Lays out a map as a cave. It fails when no attempt suffices. -/
def Layout.cavern (p : CavernParams) (m : Map) (report : Report) : Draw LayoutResult := do
  let g := m.grid
  let start ← get
  let make := attempt p g.width g.height start
  (search make (p.leastArea g.width g.height) (p.maxRetries + 1).toNat 0 none 0).conclude p m report

end Dungeon
