import Dungeon.Text

/-!
# Hashes

Variety that must not disturb the random stream, such as the wording of a description, comes from
hashing: a tag names the purpose, and the map's seed and a room's number are mixed with it.

`Hash.mix` is built from steps that can each be undone, so it loses nothing.
-/

namespace Dungeon.Hash

/-- The byte-wise hash of a text: each byte is folded in by exclusive or and a multiplication. -/
def ofText (t : Text) : UInt32 :=
  t.foldl (fun h c => (h ^^^ c.toUInt32) * 16777619) 2166136261

/-- The hash that keeps one purpose apart from another. -/
def tag (name : String) : UInt32 := ofText name

/-- Exclusive or of a word with itself moved down by `n` bits. -/
def foldDown (n : UInt32) (x : UInt32) : UInt32 := x ^^^ (x >>> n)

/-- Scatters the bits of a word. -/
def mix (x : UInt32) : UInt32 :=
  foldDown 16 (foldDown 15 (foldDown 16 x * 0x7feb352d) * 0x846ca68b)

/-- Two words as one. -/
def combine (a b : UInt32) : UInt32 :=
  mix (a ^^^ (b + 0x9e3779b9 + a <<< (6 : UInt32) + a >>> (2 : UInt32)))

/-- Three words as one. -/
def combine₃ (a b c : UInt32) : UInt32 := combine (combine a b) c

end Dungeon.Hash
