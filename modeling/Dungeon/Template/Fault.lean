import Dungeon.Template.Field
import Dungeon.Text.Decimal

/-!
# Checking a template

A template is checked before it is used. The rules have an order, and the first one that a template
breaks is its fault. The common rules come first, then those of the chosen layout; the parameters
of other layouts are not looked at.

One rule for a partition compares with a sum of its parameters. The sum is exact where a template is
checked to be laid out. A check in machine words goes by the sum that is left in a word, so it
accepts some templates that break the rule.
-/

namespace Dungeon

/-- What is wrong with a template. -/
inductive TemplateFault where
  | outOfRange (field : IntField) (least greatest value : Int)
  | tooSmall (field : IntField) (least value : Int)
  | noProbability (field : NumberField)
  | mapBelowLeaf (width height leaf : Int)
  | roomBeyondMap (room width height : Int)
  | unknownAlgorithm
  deriving DecidableEq, Repr

/-- The text of a size, as in `48x32`. -/
def sizeText (width height : Int) : Text := Text.ofInt width ++ "x" ++ Text.ofInt height

namespace TemplateFault

def message : TemplateFault → Text
  | outOfRange field least greatest value =>
      field.key ++ " must be in [" ++ Text.ofInt least ++ ", " ++ Text.ofInt greatest ++ "], got "
        ++ Text.ofInt value
  | tooSmall field least value =>
      field.key ++ " must be >= " ++ Text.ofInt least ++ ", got " ++ Text.ofInt value
  | noProbability field => field.key ++ " must be in [0, 1]"
  | mapBelowLeaf width height leaf =>
      "map " ++ sizeText width height ++ " is smaller than bsp.min_leaf_size " ++ Text.ofInt leaf
  | roomBeyondMap room width height =>
      "scatter.min_room_size " ++ Text.ofInt room ++ " does not fit a " ++ sizeText width height
        ++ " map with a one-tile border"
  | unknownAlgorithm => "unknown layout algorithm"

end TemplateFault

namespace Template

/-! ## Rules -/

/-- A field lies between two bounds. -/
def within (a : Template) (field : IntField) (least greatest : Int) : Option TemplateFault :=
  let value := field.get a
  if least ≤ value ∧ value ≤ greatest then none
  else some (.outOfRange field least greatest value)

/-- A field has at least a value. -/
def atLeast (a : Template) (field : IntField) (least : Int) : Option TemplateFault :=
  let value := field.get a
  if least ≤ value then none else some (.tooSmall field least value)

/-- A field lies between 0 and 1. -/
def probability (a : Template) (field : NumberField) : Option TemplateFault :=
  if (field.get a).inUnit then none else some (.noProbability field)

/-- The map has room for the least leaf. -/
def leafFits (a : Template) : Option TemplateFault :=
  let leaf := a.partition.minLeaf
  if leaf ≤ a.width ∧ leaf ≤ a.height then none else some (.mapBelowLeaf a.width a.height leaf)

/-- The greatest side of a room is open or not below the least one. -/
def roomSidesAgree (a : Template) : Option TemplateFault :=
  if a.scatter.maxRoom = 0 then none else a.atLeast .scatterMaxRoom a.scatter.minRoom

/-- The map has room for the least room and a border of one tile. -/
def roomFits (a : Template) : Option TemplateFault :=
  let room := a.scatter.minRoom
  if room ≤ a.width - 2 ∧ room ≤ a.height - 2 then none
  else some (.roomBeyondMap room a.width a.height)

def commonRules (a : Template) : List (Option TemplateFault) :=
  [a.within .width 8 512, a.within .height 8 512, a.probability .monsterDensity,
   a.probability .treasureDensity, a.probability .trapDensity, a.atLeast .level 1]

/-- The rules for a partition whose leaves have to have a side. -/
def partitionRules (a : Template) (leaf : Int) : List (Option TemplateFault) :=
  [a.atLeast .partitionMinRoom 1, a.atLeast .partitionPadding 0, a.within .partitionMaxDepth 0 16,
   a.atLeast .partitionMinRooms 1, a.atLeast .partitionMinLeaf leaf, a.leafFits]

def cavernRules (a : Template) : List (Option TemplateFault) :=
  [a.probability .cavernFill, a.within .cavernSmoothings 0 32, a.within .cavernThreshold 0 8,
   a.atLeast .cavernMinArea 0, a.within .cavernMaxRetries 0 64, a.atLeast .cavernMinRoom 1,
   a.atLeast .cavernMaxRooms 1, a.atLeast .cavernRoomPadding 0]

def scatterRules (a : Template) : List (Option TemplateFault) :=
  [a.atLeast .scatterTargetRooms 1, a.atLeast .scatterMinRoom 1, a.roomSidesAgree,
   a.atLeast .scatterPadding 0, a.atLeast .scatterAttempts 1, a.roomFits]

/-- The rules of the chosen layout. -/
def layoutRules (a : Template) (leaf : Int) : List (Option TemplateFault) :=
  match a.algorithm with
  | .partition => a.partitionRules leaf
  | .cavern => a.cavernRules
  | .scatter => a.scatterRules
  | .unlisted _ => [some .unknownAlgorithm]

/-- The first rule that the template breaks, if the leaves of a partition have to have a side. -/
def faultFor? (a : Template) (leaf : Int) : Option TemplateFault :=
  (a.commonRules ++ a.layoutRules leaf).findSome? id

/-- The first rule that the template breaks. -/
def fault? (a : Template) : Option TemplateFault := a.faultFor? a.partition.neededLeaf

/-- The first rule that the template breaks in a check in machine words. -/
def wordFault? (a : Template) : Option TemplateFault := a.faultFor? a.partition.wordNeededLeaf

end Template
end Dungeon
