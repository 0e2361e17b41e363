import Dungeon.Layout.Cavern
import Dungeon.Proofs.Search

/-!
# Noise and smoothing

The floor of a cave, described without grids: noise makes a set of points, and every step of
smoothing makes a set of the one before it. A grid that depicts such a set has its size and its
floor, and the computation of a cave depicts the described one.

Results:
1. `Cavern.noise_depicts`: each point of the map is decided by the draw of its place, row by row.
2. `Cavern.smoothOnce_depicts`: a step looks at the cave before it only.
3. `Cavern.grow_depicts`: the grid of an attempt is the cave described by `Cavern.cave`.
-/

namespace Dungeon

/-- The value of the draw with a number, of draws made one after the other from a source. -/
def Draw.nth {α : Type} (d : Draw α) (s : Source) (n : Nat) : α :=
  (d.run ((fun s => (d.run s).2)^[n] s)).1

/-- The points of a map of a size. -/
def mapPoints (width height : Int) : Set Point :=
  {q | (0 ≤ q.x ∧ q.x < width) ∧ 0 ≤ q.y ∧ q.y < height}

theorem Grid.mem_mapPoints {g : Grid} {q : Point} :
    q ∈ mapPoints g.width g.height ↔ g.inBounds q = true := by
  rw [inBounds_iff, mapPoints, Set.mem_ofPred_eq]
  omega

/-- The grid has the size, a tile of wall or floor for each of its points, and the floor. -/
structure Grid.Depicts (g : Grid) (width height : Int) (floor : Set Point) : Prop where
  size : g.tiles.size = width.toNat * height.toNat
  plain : g.Plain
  width : g.width = width
  height : g.height = height
  floor : g.floor = floor

theorem Grid.Depicts.full {g : Grid} {width height : Int} {floor : Set Point}
    (h : g.Depicts width height floor) : g.Full := by
  unfold Grid.Full
  rw [h.width, h.height, h.size]

namespace Cavern

/-! ## The cave, as sets of points -/

/-- The points whose draw comes out as floor. Places are counted row by row. -/
def noiseFloor (fill : Number.Single) (width height : Int) (s : Source) : Set Point :=
  {q ∈ mapPoints width height |
    (Draw.chance (fill.convert Number.double)).nth s (q.y * width + q.x).toNat = true}

/-- The points of the map that have enough points of the cave among the eight around them. -/
def smoothed (threshold width height : Int) (cave : Set Point) : Set Point :=
  {q ∈ mapPoints width height | threshold ≤ ({r ∈ cave | q.chebyshev r = 1}.ncard : Int)}

/-- The cave that grows from a source, before its largest region is taken. -/
def cave (p : CavernParams) (width height : Int) (s : Source) : Set Point :=
  (smoothed p.threshold width height)^[p.smoothings.toNat] (noiseFloor p.fill width height s)

/-! ## Noise -/

theorem noiseTiles_run (threshold n : Nat) (tiles : Array Tile) (s : Source) :
    ((noiseTiles threshold n tiles).run s).1.toList = tiles.toList ++
      (List.range n).map fun k =>
        if (Draw.below threshold).nth s k then Tile.floor else Tile.wall := by
  induction n generalizing tiles s with
  | zero => exact (List.append_nil _).symm
  | succ n ih =>
    -- One draw gives the next tile, and the later ones are counted from the source it leaves.
    have hstep : (noiseTiles threshold (n + 1) tiles).run s =
        (noiseTiles threshold n (tiles.push
          (if (Draw.below threshold).nth s 0 then .floor else .wall))).run
            ((Draw.below threshold).run s).2 := rfl
    rw [hstep, ih, Array.toList_push, List.range_succ_eq_map, List.map_cons, List.map_map,
      List.append_assoc, List.singleton_append]
    rfl

theorem noise_depicts (fill : Number.Single) (width height : Int) (s : Source) :
    ((noise fill width height).run s).1.Depicts width height (noiseFloor fill width height s) := by
  let draw := Draw.chance (fill.convert Number.double)
  let g := ((noise fill width height).run s).1
  have htiles : g.tiles.toList = (List.range (width.toNat * height.toNat)).map fun k =>
      if draw.nth s k then Tile.floor else Tile.wall := by
    have hrun := noiseTiles_run (fill.convert Number.double).datum.wordsBelow
      (width.toNat * height.toNat) #[] s
    rw [List.nil_append] at hrun
    exact hrun
  have hdraw : ∀ q, g.inBounds q = true → (g.isFloor q = true ↔ draw.nth s (g.index q) = true) := by
    intro q hq
    have hlt : g.index q < width.toNat * height.toNat := Grid.index_lt hq
    rw [Grid.isFloor, Grid.tileAt_eq hq, Array.getD_eq_getD_getElem?, ← Array.getElem?_toList,
      htiles, List.getElem?_map, List.getElem?_range hlt]
    rw [Option.map_some, Option.getD_some]
    split
    · next hfloor => exact iff_of_true rfl hfloor
    · next hwall => exact iff_of_false (fun h => by cases h) hwall
  refine ⟨?_, ?_, rfl, rfl, ?_⟩
  · have hlength := congrArg List.length htiles
    rw [List.length_map, List.length_range] at hlength
    exact hlength
  · intro t ht
    have hmem : t ∈ g.tiles.toList := Array.mem_def.mp ht
    rw [htiles, List.mem_map] at hmem
    obtain ⟨k, _, rfl⟩ := hmem
    split
    · exact .inr rfl
    · exact .inl rfl
  · ext q
    constructor
    · intro hq
      have hin := Grid.inBounds_of_mem_floor hq
      exact ⟨Grid.mem_mapPoints.mpr hin, (hdraw q hin).mp hq⟩
    · rintro ⟨hin, hq⟩
      exact (hdraw q (Grid.mem_mapPoints.mp hin)).mpr hq

/-! ## Smoothing -/

theorem floorAround_eq (g : Grid) (q : Point) :
    floorAround g q = {r ∈ g.floor | q.chebyshev r = 1}.ncard := by
  rw [floorAround, List.countP_eq_length_filter]
  refine (ncard_eq_length (q.nodup_neighbours8.filter _) fun r => ?_).symm
  rw [List.mem_filter, Point.mem_neighbours8]
  exact and_comm

/-- What a step of smoothing makes of a grid depends on the size and the floor of that only. -/
theorem floor_smoothOnce (threshold : Int) (g : Grid) :
    (smoothOnce threshold g).floor = smoothed threshold g.width g.height g.floor := by
  rw [smoothOnce, Grid.floor_ofFloor]
  ext q
  rw [smoothed, Set.mem_ofPred_eq, Set.mem_ofPred_eq, ← floorAround_eq, decide_eq_true_eq,
    Grid.mem_mapPoints]
  rfl

theorem smoothOnce_depicts {g : Grid} {width height : Int} {floor : Set Point} (threshold : Int)
    (h : g.Depicts width height floor) :
    (smoothOnce threshold g).Depicts width height (smoothed threshold width height floor) where
  size := by rw [smoothOnce, Grid.size_tiles_ofFloor, h.width, h.height]
  plain := fun t ht => by
    rw [smoothOnce, Grid.ofFloor, List.mem_toArray, List.mem_map] at ht
    obtain ⟨q, _, rfl⟩ := ht
    split
    · exact .inr rfl
    · exact .inl rfl
  width := h.width
  height := h.height
  floor := by rw [floor_smoothOnce, h.width, h.height, h.floor]

theorem smooth_depicts {g : Grid} {width height : Int} {floor : Set Point} (threshold : Int)
    (times : Nat) (h : g.Depicts width height floor) :
    (smooth threshold times g).Depicts width height
      ((smoothed threshold width height)^[times] floor) := by
  induction times generalizing g floor with
  | zero => exact h
  | succ times ih =>
    rw [smooth, Function.iterate_succ_apply]
    exact ih (smoothOnce_depicts threshold h)

theorem floor_smooth (threshold : Int) (times : Nat) (g : Grid) :
    (smooth threshold times g).floor = (smoothed threshold g.width g.height)^[times] g.floor := by
  induction times generalizing g with
  | zero => rfl
  | succ times ih =>
    rw [smooth, ih, floor_smoothOnce, Function.iterate_succ_apply]
    rfl

/-- Growing a grid from a source gives the cave described by sets. -/
theorem grow_depicts (p : CavernParams) (width height : Int) (s : Source) :
    ((grow p width height).run s).1.Depicts width height (cave p width height s) :=
  smooth_depicts p.threshold p.smoothings.toNat (noise_depicts p.fill width height s)

end Cavern
end Dungeon
