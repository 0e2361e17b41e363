import Dungeon.Template

/-!
# The fields of a template

Each whole-number field and each fractional field has a key. A field reads and writes one part of a
template and leaves the others alone.
-/

namespace Dungeon

/-- The whole-number fields. -/
inductive IntField where
  | width
  | height
  | level
  | partitionMinLeaf
  | partitionMaxDepth
  | partitionMinRoom
  | partitionPadding
  | partitionMinRooms
  | cavernSmoothings
  | cavernThreshold
  | cavernMinArea
  | cavernMaxRetries
  | cavernMinRoom
  | cavernMaxRooms
  | cavernRoomPadding
  | scatterTargetRooms
  | scatterMinRoom
  | scatterMaxRoom
  | scatterPadding
  | scatterAttempts
  deriving DecidableEq, Repr

namespace IntField

def all : List IntField :=
  [width, height, level, partitionMinLeaf, partitionMaxDepth, partitionMinRoom, partitionPadding,
   partitionMinRooms, cavernSmoothings, cavernThreshold, cavernMinArea, cavernMaxRetries,
   cavernMinRoom, cavernMaxRooms, cavernRoomPadding, scatterTargetRooms, scatterMinRoom,
   scatterMaxRoom, scatterPadding, scatterAttempts]

def key : IntField → Text
  | width => "width"
  | height => "height"
  | level => "recommended_level"
  | partitionMinLeaf => "bsp.min_leaf_size"
  | partitionMaxDepth => "bsp.max_depth"
  | partitionMinRoom => "bsp.min_room_size"
  | partitionPadding => "bsp.padding"
  | partitionMinRooms => "bsp.min_rooms"
  | cavernSmoothings => "cavern.smoothing_iterations"
  | cavernThreshold => "cavern.birth_threshold"
  | cavernMinArea => "cavern.min_playable_area"
  | cavernMaxRetries => "cavern.max_retries"
  | cavernMinRoom => "cavern.min_room_size"
  | cavernMaxRooms => "cavern.max_rooms"
  | cavernRoomPadding => "cavern.room_padding"
  | scatterTargetRooms => "scatter.target_rooms"
  | scatterMinRoom => "scatter.min_room_size"
  | scatterMaxRoom => "scatter.max_room_size"
  | scatterPadding => "scatter.padding"
  | scatterAttempts => "scatter.attempts_per_room"

def get : IntField → Template → Int
  | width, a => a.width
  | height, a => a.height
  | level, a => a.level
  | partitionMinLeaf, a => a.partition.minLeaf
  | partitionMaxDepth, a => a.partition.maxDepth
  | partitionMinRoom, a => a.partition.minRoom
  | partitionPadding, a => a.partition.padding
  | partitionMinRooms, a => a.partition.minRooms
  | cavernSmoothings, a => a.cavern.smoothings
  | cavernThreshold, a => a.cavern.threshold
  | cavernMinArea, a => a.cavern.minArea
  | cavernMaxRetries, a => a.cavern.maxRetries
  | cavernMinRoom, a => a.cavern.minRoom
  | cavernMaxRooms, a => a.cavern.maxRooms
  | cavernRoomPadding, a => a.cavern.roomPadding
  | scatterTargetRooms, a => a.scatter.targetRooms
  | scatterMinRoom, a => a.scatter.minRoom
  | scatterMaxRoom, a => a.scatter.maxRoom
  | scatterPadding, a => a.scatter.padding
  | scatterAttempts, a => a.scatter.attemptsPerRoom

def set : IntField → Int → Template → Template
  | width, n, a => { a with width := n }
  | height, n, a => { a with height := n }
  | level, n, a => { a with level := n }
  | partitionMinLeaf, n, a => { a with partition.minLeaf := n }
  | partitionMaxDepth, n, a => { a with partition.maxDepth := n }
  | partitionMinRoom, n, a => { a with partition.minRoom := n }
  | partitionPadding, n, a => { a with partition.padding := n }
  | partitionMinRooms, n, a => { a with partition.minRooms := n }
  | cavernSmoothings, n, a => { a with cavern.smoothings := n }
  | cavernThreshold, n, a => { a with cavern.threshold := n }
  | cavernMinArea, n, a => { a with cavern.minArea := n }
  | cavernMaxRetries, n, a => { a with cavern.maxRetries := n }
  | cavernMinRoom, n, a => { a with cavern.minRoom := n }
  | cavernMaxRooms, n, a => { a with cavern.maxRooms := n }
  | cavernRoomPadding, n, a => { a with cavern.roomPadding := n }
  | scatterTargetRooms, n, a => { a with scatter.targetRooms := n }
  | scatterMinRoom, n, a => { a with scatter.minRoom := n }
  | scatterMaxRoom, n, a => { a with scatter.maxRoom := n }
  | scatterPadding, n, a => { a with scatter.padding := n }
  | scatterAttempts, n, a => { a with scatter.attemptsPerRoom := n }

/-- The field of a key. -/
def ofKey? (k : Text) : Option IntField := all.find? fun f => f.key == k

end IntField

/-- The fractional fields. -/
inductive NumberField where
  | monsterDensity
  | treasureDensity
  | trapDensity
  | cavernFill
  deriving DecidableEq, Repr

namespace NumberField

def all : List NumberField := [monsterDensity, treasureDensity, trapDensity, cavernFill]

def key : NumberField → Text
  | monsterDensity => "monster_density"
  | treasureDensity => "treasure_density"
  | trapDensity => "trap_density"
  | cavernFill => "cavern.fill_probability"

def get : NumberField → Template → Number.Single
  | monsterDensity, a => a.monsterDensity
  | treasureDensity, a => a.treasureDensity
  | trapDensity, a => a.trapDensity
  | cavernFill, a => a.cavern.fill

def set : NumberField → Number.Single → Template → Template
  | monsterDensity, x, a => { a with monsterDensity := x }
  | treasureDensity, x, a => { a with treasureDensity := x }
  | trapDensity, x, a => { a with trapDensity := x }
  | cavernFill, x, a => { a with cavern.fill := x }

/-- The field of a key. -/
def ofKey? (k : Text) : Option NumberField := all.find? fun f => f.key == k

end NumberField
end Dungeon
