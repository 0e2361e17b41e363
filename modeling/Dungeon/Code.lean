/-!
# Stored codes

Kinds of things are stored as one byte. A kind lists its members with the codes from zero on; a byte
beyond these is kept as it is, so that reading a code and writing it again loses nothing.
-/

namespace Dungeon

/-- A stored code beyond the listed ones. -/
structure Unlisted (listed : UInt8) where
  code : UInt8
  beyond : listed ≤ code
  deriving DecidableEq, Repr

end Dungeon
