import Dungeon.Editor
import Dungeon.Proofs.Search

/-!
# Keeping the largest region

What is kept of a grid is one region of its floor: the floor outside of it turns into wall, and no
other tile changes. The floor that is left is in one piece, so keeping its largest region changes
nothing more.

Results:
1. `Grid.tile_keepLargest_kept`, `Grid.getElem?_keepLargest`: the tiles that are left.
2. `Grid.keepLargest_keepLargest`: the largest region is kept once and for all.
3. `Editor.keepLargest_exact`: what the edit does to a map.
-/

namespace Dungeon

/-- The tile, or wall in place of floor. -/
def Tile.walled (t : Tile) : Tile := if t.isFloor then .wall else t

theorem Tile.walled_of_ne {t : Tile} (h : t ≠ .floor) : t.walled = t := by
  cases t with
  | floor => exact absurd rfl h
  | wall | door | outside | unlisted => rfl

theorem Tile.walled_walled (t : Tile) : t.walled.walled = t.walled := by
  cases t <;> rfl

namespace Grid

variable {g : Grid} {p q : Point} {i : Nat}

theorem getElem?_withoutFloor (g : Grid) (i : Nat) :
    g.withoutFloor.tiles[i]? = g.tiles[i]?.map Tile.walled := Array.getElem?_map

theorem keepLargest_cases (g : Grid) :
    g.floor = ∅ ∧ g.keepLargest = (g, 0) ∨ ∃ q, LeadsLargest g.floor q := by
  cases g.floor.eq_empty_or_nonempty with
  | inl h => exact .inl ⟨h, by rw [keepLargest_eq, if_pos (survey_of_floor_empty h)]⟩
  | inr h =>
    obtain ⟨q, hq, _⟩ := exists_leading h
    exact .inr ⟨q, hq⟩

theorem keepLargest_fst_eq (g : Grid) :
    g.keepLargest.1 = { g with tiles := g.keepLargest.1.tiles } := by
  obtain ⟨hwidth, hheight, _⟩ := g.keepLargest_size
  exact congrArg₂ (fun w h => Grid.mk w h g.keepLargest.1.tiles) hwidth hheight

theorem Full.keepLargest (hg : g.Full) : g.keepLargest.1.Full := by
  obtain ⟨hwidth, hheight, hsize⟩ := g.keepLargest_size
  exact hg.congr hwidth hheight hsize

theorem tile_keepLargest_kept (hg : g.Full) (h : LeadsLargest g.floor q)
    (hp : p ∈ region g.floor q) : g.keepLargest.1.tiles[g.index p]? = some .floor := by
  rw [← floor_keepLargest hg h] at hp
  rw [← index_congr g.keepLargest_size.1]
  exact tile_of_mem_floor hp

/-- Where no kept point stands, no floor is left. -/
theorem getElem?_keepLargest (h : LeadsLargest g.floor q)
    (hi : ∀ p ∈ region g.floor q, g.index p ≠ i) :
    g.keepLargest.1.tiles[i]? = g.tiles[i]?.map Tile.walled := by
  obtain ⟨b, hb, hsize, hbest⟩ := exists_leading ⟨q, h.mem⟩
  have hbq : b = q := LeadsLargest.unique hb h
  subst hbq
  have hpos : g.survey.size ≠ 0 := by
    rw [hsize]
    exact (ncard_region_pos h.mem).ne'
  rw [keepLargest_eq, if_neg hpos]
  have houtside : ∀ p ∈ g.survey.best, g.withoutFloor.inBounds p = true →
      g.withoutFloor.index p ≠ i := fun p hp _ => hi p ((hbest p).mp hp)
  exact (getElem?_carve_of_ne houtside).trans (getElem?_withoutFloor g i)

theorem keepLargest_eq_ncard (hg : g.Full) : g.keepLargest.2 = g.keepLargest.1.floor.ncard := by
  rcases g.keepLargest_cases with ⟨hempty, heq⟩ | ⟨q, hq⟩
  · rw [heq, hempty, Set.ncard_empty]
  · rw [keepLargest_area, largestArea_eq hq.largest, floor_keepLargest hg hq]

theorem tileAt_keepLargest_of_notMem (hg : g.Full) (hp : p ∈ g.floor)
    (hout : p ∉ g.keepLargest.1.floor) : g.keepLargest.1.tileAt p = .wall := by
  obtain ⟨q, hq, _⟩ := exists_leading ⟨p, hp⟩
  obtain ⟨hwidth, hheight, _⟩ := g.keepLargest_size
  have hin := inBounds_of_mem_floor hp
  rw [floor_keepLargest hg hq] at hout
  have hi : ∀ r ∈ region g.floor q, g.index r ≠ g.index p := fun r hr heq =>
    hout (index_inj (inBounds_of_mem_floor (region_subset _ _ hr)) hin heq ▸ hr)
  rw [tileAt_eq (by rw [inBounds_congr hwidth hheight, hin]), index_congr hwidth,
    Array.getD_eq_getD_getElem?, getElem?_keepLargest hq hi, tile_of_mem_floor hp]
  rfl

theorem getElem?_keepLargest_of_ne (hi : g.tiles[i]? ≠ some .floor) :
    g.keepLargest.1.tiles[i]? = g.tiles[i]? := by
  rcases g.keepLargest_cases with ⟨_, heq⟩ | ⟨q, hq⟩
  · rw [heq]
  · have hnone : ∀ p ∈ region g.floor q, g.index p ≠ i := fun p hp heq =>
      hi (heq ▸ tile_of_mem_floor (region_subset _ _ hp))
    rw [getElem?_keepLargest hq hnone]
    cases htile : g.tiles[i]? with
    | none => rfl
    | some t =>
      rw [Option.map_some, Tile.walled_of_ne fun ht => hi (htile.trans (congrArg some ht))]

/-- What is left of a grid is left once more. -/
theorem tiles_keepLargest_keepLargest (hg : g.Full) (h : LeadsLargest g.floor q) :
    g.keepLargest.1.keepLargest.1.tiles = g.keepLargest.1.tiles := by
  have hwidth := g.keepLargest_size.1
  have hkept := floor_keepLargest hg h
  have hlead : LeadsLargest g.keepLargest.1.floor q := by
    rw [hkept]
    exact h.in_region g.finite_floor
  have hsame : region g.keepLargest.1.floor q = region g.floor q := by
    rw [hkept, region_region h.mem]
  refine Array.ext_getElem? fun i => ?_
  by_cases hi : ∃ p ∈ region g.floor q, g.index p = i
  · obtain ⟨p, hp, rfl⟩ := hi
    rw [tile_keepLargest_kept hg h hp, ← index_congr hwidth]
    exact tile_keepLargest_kept hg.keepLargest hlead (hsame ▸ hp)
  · have hnone : ∀ p ∈ region g.floor q, g.index p ≠ i := fun p hp heq => hi ⟨p, hp, heq⟩
    have hnone' : ∀ p ∈ region g.keepLargest.1.floor q, g.keepLargest.1.index p ≠ i :=
      fun p hp => by
        rw [index_congr hwidth]
        exact hnone p (hsame ▸ hp)
    rw [getElem?_keepLargest hlead hnone', getElem?_keepLargest h hnone, Option.map_map]
    exact congrArg (g.tiles[i]?.map) (funext Tile.walled_walled)

/-- The largest region of what is left is all of it. -/
theorem keepLargest_keepLargest (hg : g.Full) : g.keepLargest.1.keepLargest = g.keepLargest := by
  rcases g.keepLargest_cases with ⟨_, heq⟩ | ⟨q, hq⟩
  · rw [heq, heq]
  · have hgrid : g.keepLargest.1.keepLargest.1 = g.keepLargest.1 := by
      rw [keepLargest_fst_eq, tiles_keepLargest_keepLargest hg hq]
    refine Prod.ext hgrid ?_
    rw [keepLargest_eq_ncard hg.keepLargest, hgrid, keepLargest_eq_ncard hg]

end Grid

namespace Editor

/-- The editor with another grid under its map. -/
def withGrid (e : Editor) (grid : Grid) : Editor := e.onMap fun m => { m with grid }

theorem apply_keepLargest (e : Editor) :
    e.apply .keepLargest = e.withGrid e.map.grid.keepLargest.1 := by
  rw [apply, withGrid, onMap, onMap]

theorem withGrid_withGrid (e : Editor) (grid grid' : Grid) :
    (e.withGrid grid).withGrid grid' = e.withGrid grid' := rfl

theorem grid_withGrid (e : Editor) (grid : Grid) : (e.withGrid grid).map.grid = grid := rfl

theorem withGrid_grid (e : Editor) : e.withGrid e.map.grid = e := rfl

/-- The edit keeps one region of the floor and counts its points: the largest region, and of regions
of the same size that with the first point row by row. The other floor turns into wall, the
remaining tiles and all but the tiles stay as they are, and a second such edit changes nothing. -/
theorem keepLargest_exact (e : Editor) (hg : e.map.grid.Full) :
    let g := e.map.grid
    let count := g.keepLargest.2
    let after := e.apply .keepLargest
    let kept := after.map.grid.floor
    (count = largestArea g.floor ∧ count = kept.ncard) ∧
      (g.floor = ∅ → count = 0 ∧ after = e) ∧
      (g.floor.Nonempty → ∃ q, LeadsLargest g.floor q ∧ kept = region g.floor q) ∧
      (∀ p ∈ g.floor, p ∉ kept → after.map.grid.tileAt p = .wall) ∧
      (∀ i : Nat, g.tiles[i]? ≠ some .floor → after.map.grid.tiles[i]? = g.tiles[i]?) ∧
      (after = e.withGrid { g with tiles := after.map.grid.tiles } ∧
        after.map.grid.tiles.size = g.tiles.size) ∧
      after.apply .keepLargest = after ∧ after.map.grid.keepLargest.2 = count := by
  intro g count after kept
  have hafter : after = e.withGrid g.keepLargest.1 := e.apply_keepLargest
  have hgrid : after.map.grid = g.keepLargest.1 := by rw [hafter, grid_withGrid]
  have htwice := Grid.keepLargest_keepLargest hg
  simp only [kept, hgrid]
  refine ⟨⟨g.keepLargest_area, Grid.keepLargest_eq_ncard hg⟩, fun hempty => ?_, fun hfloor => ?_,
    fun p hp hout => Grid.tileAt_keepLargest_of_notMem hg hp hout,
    fun i hi => Grid.getElem?_keepLargest_of_ne hi, ⟨?_, g.keepLargest_size.2.2⟩, ?_,
    congrArg Prod.snd htwice⟩
  · rcases g.keepLargest_cases with ⟨_, heq⟩ | ⟨q, hq⟩
    · rw [hafter, heq]
      exact ⟨congrArg Prod.snd heq, withGrid_grid e⟩
    · exact absurd hq.mem (hempty ▸ Set.notMem_empty q)
  · obtain ⟨q, hq, _⟩ := Grid.exists_leading hfloor
    exact ⟨q, hq, Grid.floor_keepLargest hg hq⟩
  · rw [hafter, ← g.keepLargest_fst_eq]
  · rw [apply_keepLargest, hgrid, congrArg Prod.fst htwice, hafter, withGrid_withGrid]

/-- Two points of floor with a door between them: two regions of the same size. -/
def doorway : Editor :=
  { map := { grid := ⟨3, 1, #[.floor, .door, .floor]⟩ }, source := .ofSeed 1 }

theorem keepLargest_exact_doorway :
    let after := doorway.apply .keepLargest
    (doorway.map.grid.Full ∧ doorway.map.grid.floor.Nonempty) ∧
      (∃ q, LeadsLargest doorway.map.grid.floor q ∧
        after.map.grid.floor = region doorway.map.grid.floor q) ∧
      after.map.grid.tiles = #[.floor, .door, .wall] ∧ after.apply .keepLargest = after := by
  have hfull : doorway.map.grid.Full := by
    unfold Grid.Full
    decide
  have hfloor : doorway.map.grid.floor.Nonempty := ⟨⟨0, 0⟩, by
    rw [Grid.mem_floor]
    decide⟩
  obtain ⟨_, _, hleads, _, _, _, htwice, _⟩ := keepLargest_exact doorway hfull
  exact ⟨⟨hfull, hfloor⟩, hleads hfloor, by decide +kernel, htwice⟩

end Editor
end Dungeon
