import Dungeon.Proofs.Grid
import Dungeon.Proofs.Link
import Dungeon.Proofs.Path

/-!
# Corridors between rooms

Joining two rooms takes one word from the source, for the bend of the corridor, and turns the path
between the centers into floor. Where rooms and corridors lie is of no account: a path may run over
both, and the part of it outside the grid is left out.

Results:
1. `Bend.path_spec`: everything about the shape of a bent path.
2. `Corridor.draw_run`: the corridor that a word makes.
3. `Map.carveCorridor_drawn`: what becomes of a map in which a corridor between two rooms is carved.
-/

namespace Dungeon

/-- The path goes from one point to another with one bend, and as straight as it can. -/
structure Bend.IsPath (bend : Bend) (a b : Point) (path : List Point) : Prop where
  first : path.head? = some a
  last : path.getLast? = some b
  shortest : path.length = a.manhattan b + 1
  nodup : path.Nodup
  steps : path.IsChain fun p q => p.manhattan q = 1
  in_box : ∀ p ∈ path,
    (min a.x b.x ≤ p.x ∧ p.x ≤ max a.x b.x) ∧ min a.y b.y ≤ p.y ∧ p.y ≤ max a.y b.y
  /-- Every point is in the column or in the row of the corner. -/
  on_legs : ∀ p ∈ path, p.x = (bend.corner a b).x ∨ p.y = (bend.corner a b).y

theorem Bend.path_spec (bend : Bend) (a b : Point) : bend.IsPath a b (bend.path a b) where
  first := head?_path bend a b
  last := getLast?_path bend a b
  shortest := length_path bend a b
  nodup := nodup_path bend a b
  steps := path_walks bend a b
  in_box := fun p hp => by
    obtain ⟨hleft, hright, htop, hbottom⟩ := path_in_box hp
    exact ⟨⟨hleft, hright⟩, htop, hbottom⟩
  on_legs := fun _ hp => path_on_legs hp

/-- An even word bends the corridor after a horizontal leg, an odd one after a vertical leg. -/
theorem Corridor.draw_run (a b : Room) (s : Source) :
    (Corridor.draw a b).run s =
      (.between (if s.next.state % 2 = 0 then .horizontal else .vertical) a b, s.next) := by
  have hword : ((s.next.state % Draw.rangeSize 0 1).toNat : Int) = 0 ↔ s.next.state % 2 = 0 := by
    rw [Int.natCast_eq_zero, ← UInt32.toNat_zero, UInt32.toNat_inj]
    rfl
  have hrun : (Corridor.draw a b).run s =
      let drawn := (Draw.between 0 1).run s
      (.between (if drawn.1 = 0 then .horizontal else .vertical) a b, drawn.2) := rfl
  rw [hrun, Draw.between_run (by decide)]
  simp only [zero_add, hword]

/-- A bent path leads from its first point to its last in as few steps as there can be, along an
axis each, stays in the box of the two on the lines through its corner and meets no point twice; the
way back is the path with the other bend. A corridor between two rooms takes one word and has such a
path between their centers. Carving it makes floor of the points of the path inside the grid, and
changes nothing else of a map. Coordinates are exact integers, which stand for machine words as long
as the length of the path has room in 32 bits. -/
theorem Map.carveCorridor_drawn :
    (∀ (bend : Bend) (a b : Point), bend.IsPath a b (bend.path a b)) ∧
      (∀ a b : Point, (Bend.horizontal.path a b).reverse = Bend.vertical.path b a) ∧
      ∀ (m : Map) (a b : Room) (s : Source),
        let bend := if s.next.state % 2 = 0 then Bend.horizontal else Bend.vertical
        let c : Corridor := ⟨a.id, b.id, bend.path a.center b.center⟩
        let carved := m.carveCorridor c
        (Corridor.draw a b).run s = (c, s.next) ∧
        carved = { m with grid := { m.grid with tiles := carved.grid.tiles } } ∧
        (∀ i, carved.grid.tiles[i]?
          = if ∃ p ∈ c.path, m.grid.inBounds p = true ∧ m.grid.index p = i
            then m.grid.tiles[i]?.map fun _ => .floor else m.grid.tiles[i]?) ∧
        (m.grid.Full → ∀ p, carved.grid.tileAt p
          = if m.grid.inBounds p = true ∧ p ∈ c.path then .floor else m.grid.tileAt p) := by
  refine ⟨Bend.path_spec, Bend.reverse_path_horizontal, fun m a b s => ?_⟩
  refine ⟨Corridor.draw_run a b s, ?_, Grid.getElem?_carve m.grid _, fun hfull =>
    Grid.tileAt_carve hfull _⟩
  rw [Map.carveCorridor, ← Grid.carve_eq_withTiles]

/-- Two rooms on an empty map: the first word after seed 11 is odd, and the corridor turns where the
column of the first center meets the row of the second. -/
theorem Map.carveCorridor_drawn_twoRooms :
    let m : Map := .ofSize 20 12
    let c : Corridor := ⟨0, 1, Bend.vertical.path ⟨2, 2⟩ ⟨14, 8⟩⟩
    m.grid.Full ∧ (Corridor.draw (.ofRect 0 ⟨1, 1, 3, 3⟩) (.ofRect 1 ⟨12, 7, 4, 3⟩)).run (.ofSeed 11)
        = (c, (Source.ofSeed 11).next) ∧
      (m.carveCorridor c).grid.tileAt ⟨2, 8⟩ = .floor ∧
      (m.carveCorridor c).grid.tileAt ⟨14, 2⟩ = .wall := by
  have hfull : (Map.ofSize 20 12).grid.Full := by unfold Grid.Full; decide +kernel
  obtain ⟨hdraw, _, _, htile⟩ := carveCorridor_drawn.2.2 (.ofSize 20 12)
    (.ofRect 0 ⟨1, 1, 3, 3⟩) (.ofRect 1 ⟨12, 7, 4, 3⟩) (.ofSeed 11)
  have hodd : ¬ (Source.ofSeed 11).next.state % 2 = 0 := by decide
  rw [if_neg hodd] at hdraw htile
  refine ⟨hfull, hdraw, (htile hfull ⟨2, 8⟩).trans ?_, (htile hfull ⟨14, 2⟩).trans ?_⟩
  · exact if_pos ⟨by decide, by decide⟩
  · exact (if_neg (by decide)).trans (by decide +kernel)

end Dungeon
