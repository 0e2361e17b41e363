import Dungeon.Theme

/-!
# Area templates

A template says what to lay out: a name, a theme, a layout with its parameters, a size, densities
and a recommended level. Only the parameters of the chosen layout matter to it.

The whole-number and fractional fields have keys, under which settings files and requests reach
them.

Layouts compute with exact integers. That is arithmetic on machine words as long as every number has
room in 32 bits. What is computed from a partition before anything bounds its parameters is also
given as it comes out in machine words.
-/

namespace Dungeon

/-- How a map is cut into leaves, and what room each leaf gets. -/
structure PartitionParams where
  minLeaf : Int := 6
  maxDepth : Int := 4
  minRoom : Int := 3
  /-- The least number of wall tiles between rooms of neighbouring leaves. -/
  padding : Int := 1
  /-- A map with fewer rooms is a failure. -/
  minRooms : Int := 2
  deriving DecidableEq, Repr

/-- How a cave grows, and how rooms are found in it. -/
structure CavernParams where
  /-- The probability that a tile starts as floor. -/
  fill : Number.Single := Number.Binary.percent 55
  smoothings : Int := 4
  /-- A tile with at least so many floor neighbours becomes floor. -/
  threshold : Int := 4
  /-- The least acceptable area; zero stands for an eighth of the map. -/
  minArea : Int := 0
  maxRetries : Int := 4
  minRoom : Int := 2
  maxRooms : Int := 10
  roomPadding : Int := 1
  deriving DecidableEq, Repr

/-- How rooms are scattered. -/
structure ScatterParams where
  targetRooms : Int := 10
  minRoom : Int := 3
  /-- The greatest side of a room; zero stands for a third of the shorter side of the map. -/
  maxRoom : Int := 0
  padding : Int := 2
  attemptsPerRoom : Int := 30
  deriving DecidableEq, Repr

/-- What is left of a number in a machine word of 32 bits with a sign: its last bits. -/
def wrap32 (n : Int) : Int := n.bmod 4294967296

namespace PartitionParams

/-- The margin between a room and the border of its leaf. Twice the margin is at least the
padding, and the margin is never zero. -/
def margin (p : PartitionParams) : Int := max 1 ((p.padding + 1).tdiv 2)

/-- The least leaf that holds the least room and its margins. -/
def neededLeaf (p : PartitionParams) : Int := p.minRoom + 2 * p.margin

/-- The margin as it comes out in machine words. -/
def wordMargin (p : PartitionParams) : Int := max 1 ((wrap32 (p.padding + 1)).tdiv 2)

/-- The needed leaf as it comes out in machine words. -/
def wordNeededLeaf (p : PartitionParams) : Int := wrap32 (p.minRoom + wrap32 (2 * p.wordMargin))

end PartitionParams

/-- The least area a cave must have on a map of a size. -/
def CavernParams.leastArea (p : CavernParams) (width height : Int) : Int :=
  if 0 < p.minArea then p.minArea else (width * height).tdiv 8

/-- The greatest side of a room on a map of a size. -/
def ScatterParams.greatestSide (p : ScatterParams) (width height : Int) : Int :=
  if 0 < p.maxRoom then p.maxRoom else max p.minRoom ((min width height).tdiv 3)

structure Template where
  name : Text := "Dungeon"
  theme : Theme := .dungeon
  algorithm : Algorithm := .partition
  monsterDensity : Number.Single := Number.Binary.percent 50
  treasureDensity : Number.Single := Number.Binary.percent 30
  trapDensity : Number.Single := Number.Binary.percent 20
  level : Int := 1
  width : Int := 48
  height : Int := 32
  partition : PartitionParams := {}
  cavern : CavernParams := {}
  scatter : ScatterParams := {}
  deriving DecidableEq, Repr

namespace Template

/-- The template that the catalogue gives for a theme. -/
def ofTheme (t : Theme) : Template :=
  let info := t.info
  { name := info.display, theme := info.theme, algorithm := info.algorithm,
    monsterDensity := info.monsterDensity, treasureDensity := info.treasureDensity,
    trapDensity := info.trapDensity, level := info.level }

/-- The least number of wall tiles that the chosen layout keeps between rooms. The rooms of a cave
share one open space, so it keeps none. -/
def padding (a : Template) : Int :=
  match a.algorithm with
  | .partition => a.partition.padding
  | .scatter => a.scatter.padding
  | .cavern | .unlisted _ => 0

end Template
end Dungeon
