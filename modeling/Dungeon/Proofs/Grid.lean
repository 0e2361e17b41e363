import Dungeon.Map
import Dungeon.Proofs.Geometry

/-!
# The floor of a grid

A grid is seen here as the set of its floor points. Each operation on grids has one lemma on this
set, and nothing after this module looks at the array of tiles again.

Results:
1. `Grid.floor_carve`, `Grid.floor_carveRect`, `Grid.carvePlan_spec`: carving adds the carved
   points that lie inside, and takes none away.
2. `Grid.carve_eq_self`: carving floor changes nothing.
3. `Grid.floor_ofFloor`: a grid made from a test on points has the points that pass it as its floor.
4. `Grid.map_index_points`, `Grid.map_tileAt_points`: row by row, the points of a grid have the
   indices from zero on and the tiles in their order.
-/

namespace Dungeon.Grid

variable {g : Grid} {p q : Point}

/-! ## Points and indices -/

/-- The floor points of a grid. -/
def floor (g : Grid) : Set Point := {p | g.isFloor p = true}

/-- Every point inside the grid has a tile. -/
def Full (g : Grid) : Prop := g.width.toNat * g.height.toNat ≤ g.tiles.size

/-- It is a matter of the sizes alone. -/
theorem Full.congr {g' : Grid} (hg : g.Full) (hw : g'.width = g.width)
    (hh : g'.height = g.height) (hs : g'.tiles.size = g.tiles.size) : g'.Full := by
  unfold Full
  rw [hw, hh, hs]
  exact hg

theorem mem_floor : p ∈ g.floor ↔ g.isFloor p = true := Iff.rfl

theorem inBounds_iff :
    g.inBounds p = true ↔ 0 ≤ p.x ∧ 0 ≤ p.y ∧ p.x < g.width ∧ p.y < g.height := by
  rw [inBounds, decide_eq_true_eq]

theorem frame_contains : g.frame.contains p = g.inBounds p := by
  rw [Bool.eq_iff_iff, Rect.contains_iff, inBounds_iff]
  simp only [frame]
  omega

theorem mem_points : p ∈ g.points ↔ g.inBounds p = true := by
  rw [points, Rect.mem_points, frame_contains]

theorem index_eq (h : g.inBounds p = true) :
    g.index p = p.y.toNat * g.width.toNat + p.x.toNat := by
  obtain ⟨hx, hy, hw, _⟩ := inBounds_iff.mp h
  have hy' : p.y = (p.y.toNat : Int) := by omega
  have hw' : g.width = (g.width.toNat : Int) := by omega
  have hx' : p.x = (p.x.toNat : Int) := by omega
  have hsum : p.y * g.width + p.x = ((p.y.toNat * g.width.toNat + p.x.toNat : Nat) : Int) := by
    rw [hy', hw', hx']
    push_cast
    simp
  rw [index, hsum, Int.toNat_natCast]

theorem index_lt (h : g.inBounds p = true) :
    g.index p < g.width.toNat * g.height.toNat := by
  obtain ⟨hx, hy, hw, hh⟩ := inBounds_iff.mp h
  rw [index_eq h]
  calc p.y.toNat * g.width.toNat + p.x.toNat
      < p.y.toNat * g.width.toNat + g.width.toNat := by omega
    _ = g.width.toNat * (p.y.toNat + 1) := by ring
    _ ≤ g.width.toNat * g.height.toNat := Nat.mul_le_mul_left _ (by omega)

theorem index_lt_of_before (hp : g.inBounds p = true) (hq : g.inBounds q = true)
    (h : p.Before q) : g.index p < g.index q := by
  obtain ⟨hpx, hpy, hpw, _⟩ := inBounds_iff.mp hp
  obtain ⟨hqx, hqy, _, _⟩ := inBounds_iff.mp hq
  rw [index_eq hp, index_eq hq]
  rcases h with h | ⟨hy, hx⟩
  · calc p.y.toNat * g.width.toNat + p.x.toNat
        < p.y.toNat * g.width.toNat + g.width.toNat := by omega
      _ = (p.y.toNat + 1) * g.width.toNat := by ring
      _ ≤ q.y.toNat * g.width.toNat := Nat.mul_le_mul_right _ (by omega)
      _ ≤ q.y.toNat * g.width.toNat + q.x.toNat := Nat.le_add_right _ _
  · rw [hy]
    omega

theorem index_inj (hp : g.inBounds p = true) (hq : g.inBounds q = true)
    (h : g.index p = g.index q) : p = q := by
  rcases p.before_or_eq_or_before q with hb | heq | hb
  · exact absurd h (index_lt_of_before hp hq hb).ne
  · exact heq
  · exact absurd h (index_lt_of_before hq hp hb).ne'

theorem length_points (g : Grid) : g.points.length = g.width.toNat * g.height.toNat := by
  rw [points, Rect.length_points, Nat.mul_comm]
  rfl

/-- The indices grow along the points and there are as many as places, so no place is left out. -/
theorem map_index_points (g : Grid) :
    g.points.map g.index = List.range (g.width.toNat * g.height.toNat) := by
  have hsorted : (g.points.map g.index).Pairwise (· < ·) := by
    rw [List.pairwise_map]
    refine (Rect.points_pairwise g.frame).imp_of_mem fun {p q} hp hq h => ?_
    exact index_lt_of_before (mem_points.mp hp) (mem_points.mp hq) h
  have hsub : g.points.map g.index ⊆ List.range (g.width.toNat * g.height.toNat) := by
    intro i hi
    obtain ⟨p, hp, rfl⟩ := List.mem_map.mp hi
    exact List.mem_range.mpr (index_lt (mem_points.mp hp))
  have hperm : (g.points.map g.index).Perm (List.range (g.width.toNat * g.height.toNat)) := by
    refine (List.subperm_of_subset (hsorted.imp Nat.ne_of_lt) hsub).perm_of_length_le ?_
    rw [List.length_range, List.length_map, length_points]
  exact hperm.eq_of_pairwise (fun a b _ _ hab hba => absurd hab (Nat.lt_asymm hba)) hsorted
    List.pairwise_lt_range

theorem getElem?_points (h : g.inBounds p = true) : g.points[g.index p]? = some p := by
  obtain ⟨i, hi, hget⟩ := List.mem_iff_getElem.mp (mem_points.mpr h)
  have hindex : g.index p = i := by
    have hmap : (g.points.map g.index)[i]? = some (g.index p) := by
      rw [List.getElem?_map, List.getElem?_eq_getElem hi, hget, Option.map_some]
    rw [map_index_points, List.getElem?_range (by rw [← length_points]; exact hi)] at hmap
    exact (Option.some.inj hmap).symm
  rw [hindex, List.getElem?_eq_getElem hi, hget]

/-! ## Single tiles -/

theorem inBounds_of_mem_floor (h : p ∈ g.floor) : g.inBounds p = true := by
  rw [mem_floor, isFloor, tileAt] at h
  by_contra hout
  rw [if_neg hout] at h
  cases h

theorem tileAt_eq (h : g.inBounds p = true) : g.tileAt p = g.tiles.getD (g.index p) .wall := by
  rw [tileAt, if_pos h]

/-- Row by row, the tiles on the points are all tiles of a grid that has one for each point. -/
theorem map_tileAt_points (h : g.tiles.size = g.width.toNat * g.height.toNat) :
    g.points.map g.tileAt = g.tiles.toList := by
  calc g.points.map g.tileAt
      = g.points.map fun p => g.tiles.getD (g.index p) .wall :=
        List.map_congr_left fun p hp => tileAt_eq (mem_points.mp hp)
    _ = (g.points.map g.index).map fun i => g.tiles.getD i .wall := by
        rw [List.map_map]
        rfl
    _ = (List.range g.tiles.size).map fun i => g.tiles.getD i .wall := by
        rw [map_index_points, h]
    _ = g.tiles.toList := by
        refine List.ext_getElem (by simp) fun i hi hi' => ?_
        rw [List.getElem_map, List.getElem_range, Array.getElem_toList,
          Array.getD_eq_getD_getElem?, Array.getElem?_eq_getElem, Option.getD_some]

theorem index_lt_size (h : p ∈ g.floor) : g.index p < g.tiles.size := by
  have hin := inBounds_of_mem_floor h
  rw [mem_floor, isFloor, tileAt_eq hin] at h
  by_contra hge
  rw [Array.getD_eq_getD_getElem?, Array.getElem?_eq_none (by omega)] at h
  cases h

theorem tile_of_mem_floor (h : p ∈ g.floor) : g.tiles[g.index p]? = some .floor := by
  have hlt := index_lt_size h
  rw [mem_floor, isFloor, tileAt_eq (inBounds_of_mem_floor h), Array.getD_eq_getD_getElem?,
    Array.getElem?_eq_getElem hlt, Option.getD_some] at h
  rw [Array.getElem?_eq_getElem hlt]
  cases ht : g.tiles[g.index p] with
  | floor => rfl
  | wall => rw [ht] at h; cases h
  | door => rw [ht] at h; cases h
  | outside => rw [ht] at h; cases h
  | unlisted c => rw [ht] at h; cases h

theorem tileAt_of_mem_floor (h : p ∈ g.floor) : g.tileAt p = .floor := by
  rw [tileAt_eq (inBounds_of_mem_floor h), Array.getD_eq_getD_getElem?, tile_of_mem_floor h,
    Option.getD_some]

/-! ## Carving -/

theorem carvePoint_size (g : Grid) (p : Point) :
    (g.carvePoint p).width = g.width ∧ (g.carvePoint p).height = g.height ∧
      (g.carvePoint p).tiles.size = g.tiles.size := by
  unfold carvePoint
  split
  · exact ⟨rfl, rfl, Array.size_setIfInBounds⟩
  · exact ⟨rfl, rfl, rfl⟩

theorem carve_size (g : Grid) (points : List Point) :
    (g.carve points).width = g.width ∧ (g.carve points).height = g.height ∧
      (g.carve points).tiles.size = g.tiles.size := by
  unfold carve
  induction points generalizing g with
  | nil => exact ⟨rfl, rfl, rfl⟩
  | cons p rest ih =>
    obtain ⟨hw, hh, hs⟩ := carvePoint_size g p
    obtain ⟨hw', hh', hs'⟩ := ih (g.carvePoint p)
    exact ⟨hw'.trans hw, hh'.trans hh, hs'.trans hs⟩

@[simp] theorem carve_width (g : Grid) (points : List Point) :
    (g.carve points).width = g.width := (carve_size g points).1

@[simp] theorem carve_height (g : Grid) (points : List Point) :
    (g.carve points).height = g.height := (carve_size g points).2.1

@[simp] theorem size_tiles_carve (g : Grid) (points : List Point) :
    (g.carve points).tiles.size = g.tiles.size := (carve_size g points).2.2

theorem carve_eq_withTiles (g : Grid) (points : List Point) :
    g.carve points = { g with tiles := (g.carve points).tiles } := by
  rw [Grid.mk.injEq]
  exact ⟨carve_width g points, carve_height g points, rfl⟩

theorem inBounds_congr {g h : Grid} (hw : g.width = h.width) (hh : g.height = h.height)
    (p : Point) : g.inBounds p = h.inBounds p := by
  rw [inBounds, inBounds, hw, hh]

theorem index_congr {g h : Grid} (hw : g.width = h.width) (p : Point) : g.index p = h.index p := by
  rw [index, index, hw]

@[simp] theorem inBounds_carve (g : Grid) (points : List Point) (p : Point) :
    (g.carve points).inBounds p = g.inBounds p :=
  inBounds_congr (carve_width g points) (carve_height g points) p

theorem Full.carve (h : g.Full) (points : List Point) : (g.carve points).Full :=
  h.congr (carve_width g points) (carve_height g points) (size_tiles_carve g points)

theorem mem_floor_carvePoint (hg : g.Full) (p q : Point) :
    q ∈ (g.carvePoint p).floor ↔ q ∈ g.floor ∨ g.inBounds p = true ∧ q = p := by
  obtain ⟨hw, hh, _⟩ := carvePoint_size g p
  by_cases hp : g.inBounds p = true
  · have hlt : g.index p < g.tiles.size := Nat.lt_of_lt_of_le (index_lt hp) hg
    by_cases hq : g.inBounds q = true
    · have hq' : (g.carvePoint p).inBounds q = true := by rw [inBounds_congr hw hh, hq]
      rw [mem_floor, mem_floor, isFloor, isFloor, tileAt_eq hq, tileAt_eq hq', index_congr hw]
      simp only [carvePoint, hp, if_true, put, Array.getD_eq_getD_getElem?,
        Array.getElem?_setIfInBounds]
      -- Only the tile at one index is written, and inside the grid an index tells the point.
      by_cases hpq : q = p
      · subst hpq
        simp [hlt, Tile.isFloor]
      · have hne : g.index p ≠ g.index q := fun h => hpq (index_inj hq hp h.symm)
        simp [hne, hpq]
    · have hout : q ∉ g.floor := fun h => hq (inBounds_of_mem_floor h)
      have hout' : q ∉ (g.carvePoint p).floor := fun h => by
        have hin := inBounds_of_mem_floor h
        rw [inBounds_congr hw hh] at hin
        exact hq hin
      have hne : q ≠ p := fun h => hq (h ▸ hp)
      simp [hout, hout', hne]
  · rw [carvePoint, if_neg hp]
    simp [hp]

theorem floor_carve (hg : g.Full) (points : List Point) :
    (g.carve points).floor = g.floor ∪ {p | g.inBounds p = true ∧ p ∈ points} := by
  induction points generalizing g with
  | nil => simp [carve]
  | cons p rest ih =>
    obtain ⟨hw, hh, hs⟩ := carvePoint_size g p
    have hfull : (g.carvePoint p).Full := hg.congr hw hh hs
    have hcons : g.carve (p :: rest) = (g.carvePoint p).carve rest := rfl
    ext q
    rw [hcons, ih hfull, Set.mem_union, mem_floor_carvePoint hg, Set.mem_ofPred_eq,
      inBounds_congr hw hh, Set.mem_union, Set.mem_ofPred_eq, List.mem_cons]
    constructor
    · rintro ((hq | ⟨hp, rfl⟩) | ⟨hin, hq⟩)
      · exact .inl hq
      · exact .inr ⟨hp, .inl rfl⟩
      · exact .inr ⟨hin, .inr hq⟩
    · rintro (hq | ⟨hin, rfl | hq⟩)
      · exact .inl (.inl hq)
      · exact .inl (.inr ⟨hin, rfl⟩)
      · exact .inr ⟨hin, hq⟩

theorem getElem?_carvePoint (g : Grid) (p : Point) (i : Nat) :
    (g.carvePoint p).tiles[i]?
      = if g.inBounds p = true ∧ g.index p = i then g.tiles[i]?.map fun _ => .floor
        else g.tiles[i]? := by
  by_cases hp : g.inBounds p = true ∧ g.index p = i
  · obtain ⟨hin, hi⟩ := hp
    rw [if_pos (And.intro hin hi), carvePoint, if_pos hin, put, Array.getElem?_setIfInBounds,
      if_pos hi, hi]
    cases Nat.lt_or_ge i g.tiles.size with
    | inl hlt => rw [if_pos hlt, Array.getElem?_eq_getElem hlt, Option.map_some]
    | inr hge => rw [if_neg (Nat.not_lt.mpr hge), Array.getElem?_eq_none hge, Option.map_none]
  · rw [if_neg hp, carvePoint]
    split
    · next hin => exact Array.getElem?_setIfInBounds_ne fun hi => hp ⟨hin, hi⟩
    · rfl

/-- A tile becomes floor when its place is that of a carved point inside the grid. -/
theorem getElem?_carve (g : Grid) (points : List Point) (i : Nat) :
    (g.carve points).tiles[i]?
      = if ∃ p ∈ points, g.inBounds p = true ∧ g.index p = i then g.tiles[i]?.map fun _ => .floor
        else g.tiles[i]? := by
  induction points generalizing g with
  | nil => simp [carve]
  | cons p rest ih =>
    obtain ⟨hw, hh, _⟩ := carvePoint_size g p
    have hcons : g.carve (p :: rest) = (g.carvePoint p).carve rest := rfl
    rw [hcons, ih, getElem?_carvePoint]
    simp only [inBounds_congr hw hh, index_congr hw, List.exists_mem_cons_iff]
    by_cases hp : g.inBounds p = true ∧ g.index p = i
    · -- Carving the same tile again makes no difference.
      rw [if_pos hp, Option.map_map, Function.comp_def, ite_self, if_pos (Or.inl hp)]
    · simp only [hp, if_false, false_or]

theorem getElem?_carve_of_ne {points : List Point} {i : Nat}
    (h : ∀ p ∈ points, g.inBounds p = true → g.index p ≠ i) :
    (g.carve points).tiles[i]? = g.tiles[i]? := by
  rw [getElem?_carve, if_neg]
  rintro ⟨p, hp, hin, hi⟩
  exact h p hp hin hi

/-- Point by point, carving makes floor of the carved points inside the grid only. -/
theorem tileAt_carve (hg : g.Full) (points : List Point) (q : Point) :
    (g.carve points).tileAt q = if g.inBounds q = true ∧ q ∈ points then .floor else g.tileAt q := by
  unfold tileAt
  rw [inBounds_carve, index_congr (carve_width g points)]
  by_cases hin : g.inBounds q = true
  · have hlt : g.index q < g.tiles.size := (index_lt hin).trans_le hg
    have hplace : (∃ p ∈ points, g.inBounds p = true ∧ g.index p = g.index q) ↔ q ∈ points :=
      ⟨fun ⟨_, hp, hinp, hi⟩ => index_inj hinp hin hi ▸ hp, fun hq => ⟨q, hq, hin, rfl⟩⟩
    simp only [hin, if_true, true_and, Array.getD_eq_getD_getElem?, getElem?_carve, hplace,
      Array.getElem?_eq_getElem hlt]
    split <;> rfl
  · simp [hin]

theorem floor_carveRect (hg : g.Full) (r : Rect) :
    (g.carveRect r).floor = g.floor ∪ {p | g.inBounds p = true ∧ r.contains p = true} := by
  rw [carveRect, floor_carve hg]
  ext p
  simp only [Set.mem_union, Set.mem_ofPred_eq, Rect.mem_points, Rect.contains_inside,
    frame_contains]
  tauto

/-- Floor stays as it is when it is carved again. -/
theorem carve_eq_self {points : List Point}
    (h : ∀ p ∈ points, g.inBounds p = true → p ∈ g.floor) : g.carve points = g := by
  induction points with
  | nil => rfl
  | cons p rest ih =>
    have hself : g.carvePoint p = g := by
      unfold carvePoint
      split
      · next hin =>
        have hfloor := h p List.mem_cons_self hin
        have htile := tile_of_mem_floor hfloor
        have hset : g.tiles.setIfInBounds (g.index p) .floor = g.tiles := by
          apply Array.ext_getElem?
          intro i
          rw [Array.getElem?_setIfInBounds]
          split
          · next hi => rw [if_pos (index_lt_size hfloor), ← hi, htile]
          · rfl
        rw [put, hset]
      · rfl
    have hcons : g.carve (p :: rest) = (g.carvePoint p).carve rest := rfl
    rw [hcons, hself]
    exact ih fun q hq => h q (List.mem_cons_of_mem p hq)

theorem carveRect_eq_self {r : Rect}
    (h : ∀ p, r.contains p = true → g.inBounds p = true → p ∈ g.floor) : g.carveRect r = g := by
  refine carve_eq_self fun p hp hin => h p ?_ hin
  exact (Rect.contains_inside.mp (Rect.mem_points.mp hp)).1

@[simp] theorem carveRect_width (g : Grid) (r : Rect) : (g.carveRect r).width = g.width :=
  carve_width g _

@[simp] theorem carveRect_height (g : Grid) (r : Rect) : (g.carveRect r).height = g.height :=
  carve_height g _

@[simp] theorem size_tiles_carveRect (g : Grid) (r : Rect) :
    (g.carveRect r).tiles.size = g.tiles.size := size_tiles_carve g _

/-! ## Plans -/

section Plan

variable {rooms : List Room} {corridors : List Corridor}

theorem carveRooms_spec (hg : g.Full) (rooms : List Room) :
    let h := rooms.foldl (fun g r => g.carveRect r.toRect) g
    h.width = g.width ∧ h.height = g.height ∧ h.tiles.size = g.tiles.size ∧
      h.floor = g.floor ∪ {p | g.inBounds p = true ∧ ∃ r ∈ rooms, r.contains p = true} := by
  induction rooms generalizing g with
  | nil => simp
  | cons r rest ih =>
    have hfull : (g.carveRect r.toRect).Full := hg.carve _
    obtain ⟨hw, hh, hs, hfloor⟩ := ih hfull
    refine ⟨hw.trans (carveRect_width g _), hh.trans (carveRect_height g _),
      hs.trans (size_tiles_carveRect g _), ?_⟩
    rw [List.foldl_cons, hfloor, floor_carveRect hg]
    ext p
    simp only [Set.mem_union, Set.mem_ofPred_eq, carveRect, inBounds_carve, List.mem_cons,
      exists_eq_or_imp]
    tauto

theorem carveCorridors_spec (hg : g.Full) (corridors : List Corridor) :
    let h := corridors.foldl (fun g c => g.carve c.path) g
    h.width = g.width ∧ h.height = g.height ∧ h.tiles.size = g.tiles.size ∧
      h.floor = g.floor ∪ {p | g.inBounds p = true ∧ ∃ c ∈ corridors, p ∈ c.path} := by
  induction corridors generalizing g with
  | nil => simp
  | cons c rest ih =>
    obtain ⟨hw, hh, hs, hfloor⟩ := ih (hg.carve c.path)
    refine ⟨hw.trans (carve_width g _), hh.trans (carve_height g _),
      hs.trans (size_tiles_carve g _), ?_⟩
    rw [List.foldl_cons, hfloor, floor_carve hg]
    ext p
    simp only [Set.mem_union, Set.mem_ofPred_eq, inBounds_carve, List.mem_cons, exists_eq_or_imp]
    tauto

/-- The points of the rooms and of the corridors. -/
def footprint (rooms : List Room) (corridors : List Corridor) : Set Point :=
  {p | (∃ r ∈ rooms, r.contains p = true) ∨ ∃ c ∈ corridors, p ∈ c.path}

theorem carvePlan_spec (hg : g.Full) (rooms : List Room) (corridors : List Corridor) :
    (g.carvePlan rooms corridors).width = g.width ∧
      (g.carvePlan rooms corridors).height = g.height ∧
      (g.carvePlan rooms corridors).tiles.size = g.tiles.size ∧
      (g.carvePlan rooms corridors).floor
        = g.floor ∪ {p | g.inBounds p = true ∧ p ∈ footprint rooms corridors} := by
  obtain ⟨hw, hh, hs, hfloor⟩ := carveRooms_spec hg rooms
  have hfull : (rooms.foldl (fun g r => g.carveRect r.toRect) g).Full := hg.congr hw hh hs
  obtain ⟨hw', hh', hs', hfloor'⟩ := carveCorridors_spec hfull corridors
  refine ⟨hw'.trans hw, hh'.trans hh, hs'.trans hs, ?_⟩
  rw [carvePlan, hfloor', hfloor]
  ext p
  simp only [Set.mem_union, Set.mem_ofPred_eq, footprint, inBounds_congr hw hh]
  rw [or_assoc, ← and_or_left]

end Plan

/-! ## Wall -/

theorem floor_eq_empty (h : ∀ t ∈ g.tiles, t = .wall) : g.floor = ∅ := by
  rw [Set.eq_empty_iff_forall_notMem]
  intro p hp
  have htile := h _ (Array.mem_of_getElem? (tile_of_mem_floor hp))
  cases htile

theorem filled_wall (g : Grid) : ∀ t ∈ g.filled.tiles, t = .wall := by
  intro t ht
  obtain ⟨_, _, rfl⟩ := Array.mem_map.mp ht
  rfl

theorem floor_filled (g : Grid) : g.filled.floor = ∅ := floor_eq_empty g.filled_wall

theorem size_tiles_filled (g : Grid) : g.filled.tiles.size = g.tiles.size := Array.size_map

theorem Full.filled (h : g.Full) : g.filled.Full := h.congr rfl rfl (size_tiles_filled g)

theorem floor_walls (width height : Int) : (walls width height).floor = ∅ :=
  floor_eq_empty fun _ ht => (Array.mem_replicate.mp ht).2

theorem size_tiles_walls (width height : Int) :
    (walls width height).tiles.size = width.toNat * height.toNat := by
  unfold walls
  rw [Array.size_replicate]
  split
  · next h => exact Int.toNat_mul (by omega) (by omega)
  · next h =>
    cases not_and_or.mp h with
    | inl hw => rw [show width.toNat = 0 by omega, Nat.zero_mul]
    | inr hh => rw [show height.toNat = 0 by omega, Nat.mul_zero]

/-! ## Tests on points -/

theorem floor_ofFloor (width height : Int) (test : Point → Bool) :
    (ofFloor width height test).floor
      = {p | (walls width height).inBounds p = true ∧ test p = true} := by
  have hpoints : (ofFloor width height test).points = (Rect.mk 0 0 width height).points := rfl
  have hbounds : ∀ p, (ofFloor width height test).inBounds p = (walls width height).inBounds p :=
    fun p => inBounds_congr rfl rfl p
  have htile : ∀ p, (walls width height).inBounds p = true →
      (ofFloor width height test).tileAt p = if test p then .floor else .wall := by
    intro p hp
    -- The tiles are the tests of the points in turn, and a point stands at its index.
    rw [← hbounds] at hp
    have hget := getElem?_points hp
    rw [hpoints] at hget
    rw [tileAt_eq hp, Array.getD_eq_getD_getElem?]
    simp only [ofFloor, List.getElem?_toArray, List.getElem?_map] at hget ⊢
    rw [hget]
    rfl
  ext p
  rw [Set.mem_ofPred_eq]
  constructor
  · intro hp
    have hin := inBounds_of_mem_floor hp
    rw [hbounds] at hin
    rw [mem_floor, isFloor, htile p hin] at hp
    refine ⟨hin, ?_⟩
    by_contra hfalse
    rw [if_neg hfalse] at hp
    cases hp
  · rintro ⟨hin, htest⟩
    rw [mem_floor, isFloor, htile p hin, if_pos htest]
    rfl

theorem size_tiles_ofFloor (width height : Int) (test : Point → Bool) :
    (ofFloor width height test).tiles.size = width.toNat * height.toNat := by
  simp only [ofFloor, List.size_toArray, List.length_map, Rect.length_points]
  exact Nat.mul_comm _ _

theorem full_ofFloor (width height : Int) (test : Point → Bool) :
    (ofFloor width height test).Full := (size_tiles_ofFloor width height test).ge

/-! ## The kinds of tiles -/

/-- The grid has no tiles but wall and floor. -/
def Plain (g : Grid) : Prop := ∀ t ∈ g.tiles, t = .wall ∨ t = .floor

theorem Plain.carvePoint (h : g.Plain) (p : Point) : (g.carvePoint p).Plain := by
  unfold Grid.carvePoint
  split
  · intro t ht
    cases Array.mem_or_eq_of_mem_setIfInBounds ht with
    | inl hmem => exact h t hmem
    | inr heq => exact .inr heq
  · exact h

theorem Plain.carve (h : g.Plain) (points : List Point) : (g.carve points).Plain := by
  unfold Grid.carve
  induction points generalizing g with
  | nil => exact h
  | cons p rest ih => exact ih (h.carvePoint p)

theorem Plain.carvePlan (h : g.Plain) (rooms : List Room) (corridors : List Corridor) :
    (g.carvePlan rooms corridors).Plain := by
  unfold Grid.carvePlan
  refine List.foldlRecOn corridors _ ?_ fun g hg c _ => hg.carve c.path
  exact List.foldlRecOn rooms _ h fun g hg r _ => hg.carve _

theorem plain_of_wall (h : ∀ t ∈ g.tiles, t = .wall) : g.Plain := fun t ht => .inl (h t ht)

theorem plain_filled (g : Grid) : g.filled.Plain := plain_of_wall g.filled_wall

end Dungeon.Grid
