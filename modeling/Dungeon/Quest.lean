import Dungeon.Describe

/-!
# Quests

A map suggests one quest. Its title follows one of six patterns, with names put into the gaps; a
hash of the seed and the theme picks the pattern and the names. The difficulty grows with the level
and the number of monsters.
-/

namespace Dungeon

structure Quest where
  title : Text
  difficulty : Int
  reward : Int
  location : Text
  deriving DecidableEq, Repr

namespace Quest

/-- A piece of a title: words, or a gap for a name or a number. -/
inductive Piece where
  | words (t : Text)
  | count
  | monsters
  | treasure
  | helper
  | artifact
  | location
  deriving DecidableEq, Repr

/-- The patterns of titles. -/
def patterns : Vector (List Piece) 6 :=
  #v[[.words "Slay ", .count, .words " ", .monsters],
     [.words "Find the ", .treasure, .words " of ", .location],
     [.words "Rescue ", .helper, .words " from ", .location],
     [.words "Retrieve the ", .artifact, .words " for ", .helper],
     [.words "Explore the depths of ", .location],
     [.words "Survive ", .count, .words " encounters"]]

def monsterNames : Vector Text 6 :=
  #v["goblins", "skeletons", "cultists", "giant rats", "bandits", "cave spiders"]

def treasureNames : Vector Text 4 := #v["Chalice", "Crown", "Ledger", "Lantern"]

def helperNames : Vector Text 4 :=
  #v["Brother Aldric", "Captain Mira", "the cartographer Venn", "old Hollis"]

def artifactNames : Vector Text 4 :=
  #v["Sunstone Amulet", "Ember Blade", "Ashen Codex", "Warden's Key"]

/-- What fills a gap. -/
def Piece.fill (h : UInt32) (count : Int) (location : Text) : Piece → Text
  | .words t => t
  | .count => Text.ofInt count
  | .monsters => pick monsterNames (h >>> (4 : UInt32))
  | .treasure => pick treasureNames (h >>> (8 : UInt32))
  | .helper => pick helperNames (h >>> (12 : UInt32))
  | .artifact => pick artifactNames (h >>> (16 : UInt32))
  | .location => location

/-- The title that a hash gives. -/
def titleOf (h : UInt32) (count : Int) (location : Text) : Text :=
  (pick patterns h).flatMap (Piece.fill h count location)

end Quest

namespace Map

def monsterTotal (m : Map) : Int := m.rooms.foldl (fun total r => total + r.monsters) 0

/-- The quest that a map suggests. -/
def quest (m : Map) : Quest :=
  let location := m.area.theme.info.display
  let h := Hash.combine₃ m.seed (Hash.tag "QUEST") m.area.theme.code.toUInt32
  let monsters := m.monsterTotal
  let difficulty := clamp 1 10 (m.area.level + monsters.tdiv 8)
  { title := Quest.titleOf h (if 0 < monsters then monsters else 1) location,
    difficulty, reward := difficulty * 100, location }

end Map
end Dungeon
