import Dungeon.Template.Fault

/-!
# Reports

A generation ends with a map or with a fault. Faults are sorted into a few failures, for callers
that react differently to them. Warnings tell of a map that is sound but not all that was asked
for. The report carries both, and some counts.
-/

namespace Dungeon

/-- The sorts of fault. -/
inductive Failure where
  | invalidParameter
  | generationTimeout
  | disconnectedMap
  deriving DecidableEq, Repr

namespace Failure

/-- The failure of a stored code. Other codes stand for none. -/
def ofCode? (c : UInt8) : Option Failure :=
  match c with
  | 1 => some invalidParameter
  | 2 => some generationTimeout
  | 3 => some disconnectedMap
  | _ => none

/-- The name of a failure, or of there being none. -/
def name : Option Failure → Text
  | none => "None"
  | some invalidParameter => "InvalidParameter"
  | some generationTimeout => "GenerationTimeout"
  | some disconnectedMap => "DisconnectedMap"

end Failure

/-- Why a generation ended without a map. -/
inductive Fault where
  | badTemplate (fault : TemplateFault)
  | tooFewRooms (depth : Int) (rooms : Nat) (needed : Int)
  | noCave (area attempts : Int) (best : Nat)
  deriving DecidableEq, Repr

namespace Fault

def failure : Fault → Failure
  | badTemplate _ => .invalidParameter
  | tooFewRooms .. => .generationTimeout
  | noCave .. => .disconnectedMap

def message : Fault → Text
  | badTemplate fault => fault.message
  | tooFewRooms depth rooms needed =>
      "BSP stopped at depth " ++ Text.ofInt depth ++ " with " ++ Text.ofNat rooms
        ++ " room(s); at least " ++ Text.ofInt needed ++ " required"
  | noCave area attempts best =>
      "Cavern never reached " ++ Text.ofInt area ++ " connected floor tiles in "
        ++ Text.ofInt attempts ++ " attempt(s) (best " ++ Text.ofNat best ++ ")"

end Fault

/-- The sorts of warning. There is one. -/
inductive WarningKind where
  | partialGeneration
  deriving DecidableEq, Repr

namespace WarningKind

/-- The sort of a stored code. Unlisted codes count as the first. -/
def ofCode (_ : UInt8) : WarningKind := partialGeneration

def name : WarningKind → Text
  | partialGeneration => "PartialGeneration"

end WarningKind

/-- What a sound map falls short of. -/
inductive Warning where
  | fewRooms (placed : Nat) (target : Int) (attempts : Nat)
  deriving DecidableEq, Repr

namespace Warning

def kind : Warning → WarningKind
  | fewRooms .. => .partialGeneration

def message : Warning → Text
  | fewRooms placed target attempts =>
      "Placed " ++ Text.ofNat placed ++ " of " ++ Text.ofInt target ++ " rooms after "
        ++ Text.ofNat attempts ++ " attempts"

end Warning

structure Report where
  failure : Option Failure := none
  warnings : List Warning := []
  /-- The attempts at a cave. -/
  attempts : Int := 0
  /-- The rooms that were to be scattered. -/
  roomsRequested : Int := 0
  /-- The leaves of the partition. -/
  leaves : Int := 0
  deriving DecidableEq, Repr

/-- The report holds a warning of a sort. -/
def Report.hasWarning (r : Report) (kind : WarningKind) : Bool :=
  r.warnings.any fun w => w.kind == kind

end Dungeon
