import Dungeon.Encounter
import Dungeon.Text.Decimal

/-!
# Descriptions

A map and each of its rooms are described in the words of the theme. Which words a room gets is
decided by a hash of the seed and the room, a byte for each word.
-/

namespace Dungeon

open Text (byte)

/-- The entry of a table that a hash picks. -/
def pick {α : Type} {n : Nat} (table : Vector α (n + 1)) (h : UInt32) : α :=
  table.get ⟨h.toNat % (n + 1), Nat.mod_lt _ (Nat.succ_pos n)⟩

namespace Text

def isVowel (c : UInt8) : Bool := [byte 'a', byte 'e', byte 'i', byte 'o', byte 'u'].contains c

/-- The article that starts a sentence before a word. -/
def article : Text → Text
  | [] => "A"
  | c :: _ => if isVowel (lowerByte c) then "An" else "A"

end Text

namespace Room

/-- What the role of a room adds to its description. -/
def roleSentence (r : Room) : Text :=
  if r.isSpawn && r.isBoss then " The way in, and the lair of whatever rules this place."
  else if r.isSpawn then " This is where the expedition begins."
  else if r.isBoss then " Something powerful has made its lair here."
  else ""

/-- What the monsters of a room add to its description. A boss needs no such sentence. -/
def monsterSentence (r : Room) : Text :=
  if r.isBoss then ""
  else if r.monsters = 1 then " A lone creature lurks here."
  else if 1 < r.monsters then " " ++ Text.ofInt r.monsters ++ " creatures lurk here."
  else ""

def treasureSentence (r : Room) : Text :=
  if 0 < r.treasures then " Something glints in the shadows." else ""

def trapSentence (r : Room) : Text := if 0 < r.traps then " The floor looks treacherous." else ""

end Room

namespace Map

/-- The description of a room. -/
def describeRoom (m : Map) (r : Room) : Text :=
  let info := m.area.theme.info
  let h := m.roomHash "ROOMDESC" r
  let adjective := pick info.adjectives h
  Text.article adjective ++ " " ++ adjective ++ " " ++ pick info.rooms (h >>> (8 : UInt32)) ++ ", "
    ++ Text.ofInt r.w ++ " by " ++ Text.ofInt r.h ++ " feet. "
    ++ Text.capitalized (pick info.tiles (h >>> (16 : UInt32))) ++ " all around. "
    ++ pick info.ambience (h >>> (24 : UInt32))
    ++ r.roleSentence ++ r.monsterSentence ++ r.treasureSentence ++ r.trapSentence

/-- The line that describes the map as a whole. -/
def describeArea (m : Map) : Text :=
  let info := m.area.theme.info
  let count := m.rooms.length
  m.area.name ++ " (" ++ info.display ++ "): " ++ info.description ++ ". " ++ Text.ofNat count
    ++ (if count = 1 then " room" else " rooms") ++ ", recommended level "
    ++ Text.ofInt m.area.level ++ "."

end Map
end Dungeon
