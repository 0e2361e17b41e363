import Dungeon.Text

/-!
# Identifiers

Themes and layouts are named loosely: case does not matter, blanks, underscores and dashes separate
words, and other bytes are ignored. The identifier of a name is its words in lower case, joined by
single underscores.
-/

namespace Dungeon.Identifier

open Text (byte)

/-- The bytes that separate words. -/
def isSeparator (c : UInt8) : Bool := c == byte ' ' || c == byte '_' || c == byte '-'

/-- The words of a name, in lower case. -/
def words (name : Text) : List Text :=
  let kept := name.filter fun c => Text.isAlphanumeric c || isSeparator c
  ((Text.lower kept).splitOnP isSeparator).filter (· ≠ [])

/-- The identifier of a name. -/
def ofName (name : Text) : Text := Text.join "_" (words name)

/-- Looks a name up for a caller who hands over a value, and tells whether the name means anything.
Only a meaning replaces the value. -/
def lookUp {α : Type} (meaning? : Text → Option α) (name : Text) (value : α) : Bool × α :=
  match meaning? name with
  | some found => (true, found)
  | none => (false, value)

end Dungeon.Identifier
