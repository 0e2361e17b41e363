import Dungeon.Map

/-!
# Populating rooms

The first room is the entrance and the last one the lair of the boss; a lone room is both. The lair
has a guard of two to four monsters and one treasure, whatever the densities. The entrance of a map
with more rooms is empty. Other rooms hold what the densities give for their area.

A density of one stands for one thing on sixteen tiles. The whole part of the expected count is
certain, and the rest is the probability of one more.
-/

namespace Dungeon

/-- A count whose mean is the density times the area over sixteen. Only a rest draws a word. The
area and the count are exact integers, which stand for machine words as long as both have room in 32
bits. -/
def jitteredCount (density : Number.Single) (area : Int) : Draw Int :=
  let expected := density.convert Number.double * Number.Binary.ofInt Number.double area
  match expected.datum with
  | .finite false count quantum =>
      let (num, den) := Number.fractionOf count (quantum - 4)
      let rest := num % den
      if rest = 0 then pure (num / den : Nat)
      else do
        let more ← Draw.below (Number.ceilDiv (rest * UInt32.size) den)
        pure (num / den + if more then 1 else 0 : Nat)
  | _ => pure 0

namespace Room

/-- The role of the room at a place in a list of so many. -/
def kindAt (place count : Nat) : RoomKind :=
  if place = 0 ∧ place + 1 = count then .spawnBoss
  else if place = 0 then .spawn
  else if place + 1 = count then .boss
  else .normal

/-- The room without what it holds, in the role of its place. -/
def emptied (r : Room) (place count : Nat) : Room :=
  { Room.ofRect r.id r.toRect with kind := kindAt place count }

/-- Puts into a room what its role and the densities of the template ask for. -/
def furnish (a : Template) (r : Room) : Draw Room :=
  if r.isBoss then do
    let monsters ← Draw.between 2 4
    pure { r with monsters, treasures := 1 }
  else if r.isSpawn then pure r
  else do
    let monsters ← jitteredCount a.monsterDensity r.area
    let treasures ← jitteredCount a.treasureDensity r.area
    let traps ← jitteredCount a.trapDensity r.area
    pure { r with monsters, treasures, traps }

end Room

/-- Gives every room its role and what it holds. -/
def Map.populate (m : Map) (a : Template) : Draw Map := do
  let count := m.rooms.length
  let rooms ← (m.rooms.zipIdx.map fun (r, place) => r.emptied place count).mapM (Room.furnish a)
  pure { m with rooms }

end Dungeon
