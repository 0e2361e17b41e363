import Dungeon.Export.Picture
import Dungeon.Proofs.Lines
import Dungeon.Proofs.Rooms

/-!
# Pictures are read back

The marks of a picture stand over tiles, so a picture of any map loses some of them. That of a
generated map does not: centers of rooms are floor, no two rooms have one center, and there is one
room with each mark.

Results:
1. `Map.charAt_eq`: a point has the mark of the last room with a mark there; else the character of
   its tile.
2. `Map.lines_picture`: the lines of a picture are its rows.
3. `Picture.grid_picture`, `Picture.places_picture`: the tiles and the places of marks that are read
   from a picture.
4. `Handover.generate_picture`: what is read from the picture of a generated map.
-/

namespace Dungeon

open Text (byte)

/-! ## Reading -/

namespace Picture

/-- The tile under a character. -/
def tile (c : UInt8) : Tile := if c = byte '#' then .wall else .floor

/-- The grid that a picture shows, if it has rows of one length. -/
def grid (t : Text) : Grid :=
  let rows := Text.lines t
  ⟨(rows.headD []).length, rows.length, (rows.flatten.map tile).toArray⟩

/-- The points that show a character, row by row. -/
def places (t : Text) (c : UInt8) : List Point :=
  (Text.lines t).zipIdx.flatMap fun (row, y) =>
    (row.zipIdx.filter fun (d, _) => d = c).map fun (_, x) => ⟨x, y⟩

end Picture

/-! ## Characters -/

/-- The mark of a room over a point. -/
def Room.markAt? (p : Point) (r : Room) : Option UInt8 :=
  if r.center = p then r.kind.mark? else none

namespace Map

variable {m : Map} {g : Grid} {p : Point} {c : UInt8}

/-- The character of a picture on a point. -/
def charAt (m : Map) (p : Point) : UInt8 := m.glyphs.getD (m.grid.index p) (byte '#')

theorem size_markRoom (g : Grid) (glyphs : Array UInt8) (r : Room) :
    (markRoom g glyphs r).size = glyphs.size := by
  unfold markRoom
  split
  · split
    · exact Array.size_setIfInBounds
    · rfl
  · rfl

theorem getD_markRoom {glyphs : Array UInt8} (hsize : glyphs.size = g.width.toNat * g.height.toNat)
    (hin : g.inBounds p = true) (r : Room) (d : UInt8) :
    (markRoom g glyphs r).getD (g.index p) d =
      (r.markAt? p).getD (glyphs.getD (g.index p) d) := by
  unfold markRoom Room.markAt?
  cases hmark : r.kind.mark? with
  | none =>
    dsimp only
    rw [ite_self, Option.getD_none]
  | some mark =>
    dsimp only
    by_cases hcenter : r.center = p
    · have hlt : g.index p < glyphs.size := hsize ▸ Grid.index_lt hin
      rw [if_pos hcenter, hcenter, if_pos hin, Array.getD_eq_getD_getElem?,
        Array.getElem?_setIfInBounds_self_of_lt hlt, Option.getD_some, Option.getD_some]
    · rw [if_neg hcenter, Option.getD_none]
      split
      · next hin' =>
        have hne : g.index r.center ≠ g.index p := fun heq => hcenter (Grid.index_inj hin' hin heq)
        rw [Array.getD_eq_getD_getElem?, Array.getElem?_setIfInBounds_ne hne,
          ← Array.getD_eq_getD_getElem?]
      · rfl

/-- Marks are written one after another, so the last one on a point stays. -/
theorem getD_markRooms {glyphs : Array UInt8}
    (hsize : glyphs.size = g.width.toNat * g.height.toNat) (hin : g.inBounds p = true)
    (rooms : List Room) (d : UInt8) :
    (rooms.foldl (markRoom g) glyphs).getD (g.index p) d =
      ((rooms.filterMap (Room.markAt? p)).getLast?).getD (glyphs.getD (g.index p) d) := by
  induction rooms generalizing glyphs with
  | nil => rfl
  | cons r rest ih =>
    rw [List.foldl_cons, ih ((size_markRoom g glyphs r).trans hsize), getD_markRoom hsize hin]
    cases hmark : r.markAt? p with
    | none => rw [List.filterMap_cons_none hmark, Option.getD_none]
    | some c =>
      rw [List.filterMap_cons_some hmark, List.getLast?_cons, Option.getD_some, Option.getD_some]

theorem charAt_eq (m : Map) (hin : m.grid.inBounds p = true) :
    m.charAt p =
      ((m.rooms.filterMap (Room.markAt? p)).getLast?).getD (m.grid.tileAt p).glyph := by
  have hsize : (m.grid.points.map fun p => (m.grid.tileAt p).glyph).toArray.size =
      m.grid.width.toNat * m.grid.height.toNat := by
    rw [List.size_toArray, List.length_map, Grid.length_points]
  rw [charAt, glyphs, getD_markRooms hsize hin, Array.getD_eq_getD_getElem?, List.getElem?_toArray,
    List.getElem?_map, Grid.getElem?_points hin]
  rfl

/-- A character is that of the tile, or it is the mark of a room that has its center there. -/
theorem charAt_cases (m : Map) (hin : m.grid.inBounds p = true) :
    ((∀ r ∈ m.rooms, r.center = p → r.kind.mark? = none) ∧
        m.charAt p = (m.grid.tileAt p).glyph) ∨
      ∃ r ∈ m.rooms, r.center = p ∧ r.kind.mark? = some (m.charAt p) := by
  rw [charAt_eq m hin]
  cases hlast : (m.rooms.filterMap (Room.markAt? p)).getLast? with
  | none =>
    rw [List.getLast?_eq_none_iff, List.filterMap_eq_nil_iff] at hlast
    refine .inl ⟨fun r hr hcenter => ?_, rfl⟩
    have hnone := hlast r hr
    rw [Room.markAt?, if_pos hcenter] at hnone
    exact hnone
  | some c =>
    obtain ⟨r, hr, hmark⟩ := List.mem_filterMap.mp (List.mem_of_getLast? hlast)
    rw [Room.markAt?] at hmark
    split at hmark
    · next hcenter => exact .inr ⟨r, hr, hcenter, hmark⟩
    · cases hmark

/-- The character is that of no tile. -/
def NoGlyph (c : UInt8) : Prop := c ∉ Text.lit "#.+"

instance (c : UInt8) : Decidable (NoGlyph c) := inferInstanceAs (Decidable (¬_))

theorem glyph_ne (hc : NoGlyph c) (t : Tile) : t.glyph ≠ c := by
  have hglyph : t.glyph ∈ Text.lit "#.+" := by
    cases t with
    | floor => decide
    | door => decide
    | wall => decide
    | outside => decide
    | unlisted k => exact (by decide : byte '#' ∈ Text.lit "#.+")
  rintro rfl
  exact hc hglyph

theorem noGlyph_of_mark? {k : RoomKind} (h : k.mark? = some c) : NoGlyph c := by
  cases k with
  | normal => cases h
  | unlisted k => cases h
  | spawn => exact Option.some.inj h ▸ by decide
  | boss => exact Option.some.inj h ▸ by decide
  | spawnBoss => exact Option.some.inj h ▸ by decide

/-- If no two rooms have one center, the mark of a room is seen. -/
theorem charAt_eq_mark (hcenters : (m.rooms.map fun r => r.center).Nodup)
    (hin : m.grid.inBounds p = true) (hc : NoGlyph c) :
    m.charAt p = c ↔ ∃ r ∈ m.rooms, r.center = p ∧ r.kind.mark? = some c := by
  rcases m.charAt_cases hin with ⟨hnone, htile⟩ | ⟨r, hr, hcenter, hmark⟩
  · refine iff_of_false (fun heq => glyph_ne hc _ (htile.symm.trans heq)) ?_
    rintro ⟨r, hr, hcenter, hmark⟩
    rw [hnone r hr hcenter] at hmark
    cases hmark
  · refine ⟨fun heq => ⟨r, hr, hcenter, heq ▸ hmark⟩, ?_⟩
    rintro ⟨t, ht, hcenter', hmark'⟩
    rw [List.inj_on_of_nodup_map hcenters hr ht (hcenter.trans hcenter'.symm), hmark'] at hmark
    exact (Option.some.inj hmark).symm

/-! ## Rows -/

theorem pictureRows_eq (m : Map) :
    m.pictureRows = (span 0 m.grid.height).map fun y =>
      (span 0 m.grid.width).map fun x => m.charAt ⟨x, y⟩ := rfl

theorem charAt_ne_newline (hin : m.grid.inBounds p = true) : m.charAt p ≠ Text.newline := by
  rcases m.charAt_cases hin with ⟨_, htile⟩ | ⟨r, _, _, hmark⟩
  · rw [htile]
    exact glyph_ne (by decide) _
  · intro heq
    rw [heq] at hmark
    cases hkind : r.kind <;> rw [hkind] at hmark <;> cases hmark

theorem lines_picture (m : Map) : Text.lines m.picture = m.pictureRows := by
  refine Text.lines_unlines fun row hrow hnewline => ?_
  obtain ⟨y, hy, rfl⟩ := List.mem_map.mp hrow
  obtain ⟨x, hx, heq⟩ := List.mem_map.mp hnewline
  rw [mem_span] at hx hy
  refine charAt_ne_newline (m := m) (p := ⟨x, y⟩) ?_ heq
  simp only [Grid.inBounds_iff]
  omega

theorem length_span (lo n : Int) : (span lo n).length = n.toNat := by
  rw [span, List.length_map, List.length_range]

theorem length_pictureRows (m : Map) : m.pictureRows.length = m.grid.height.toNat := by
  rw [pictureRows_eq, List.length_map, length_span]

theorem length_of_mem_pictureRows {row : Text} (h : row ∈ m.pictureRows) :
    row.length = m.grid.width.toNat := by
  obtain ⟨y, _, rfl⟩ := List.mem_map.mp h
  rw [List.length_map, length_span]

theorem flatten_pictureRows (m : Map) : m.pictureRows.flatten = m.grid.points.map m.charAt := by
  rw [pictureRows_eq, Grid.points, Rect.points, List.map_flatMap, List.flatMap_def]
  simp only [List.map_map]
  rfl

end Map

namespace Picture

variable {a : Template} {m : Map} {c : UInt8}

/-- The tiles of a map that is laid out well are read from its picture: where there is a mark, there
is floor. -/
theorem tile_charAt (h : WellLaid a m) {p : Point} (hin : m.grid.inBounds p = true) :
    tile (m.charAt p) = m.grid.tileAt p := by
  rcases m.charAt_cases hin with ⟨_, htile⟩ | ⟨r, hr, hcenter, hmark⟩
  · rw [htile]
    rcases h.tileAt hin with hwall | hfloor
    · rw [hwall]
      rfl
    · rw [hfloor]
      rfl
  · have hne : m.charAt p ≠ byte '#' := fun heq =>
      Map.noGlyph_of_mark? hmark (heq ▸ by decide)
    rw [tile, if_neg hne, ← hcenter, Grid.tileAt_of_mem_floor (h.center_mem_floor hr)]

theorem grid_picture (h : WellLaid a m) : grid m.picture = m.grid := by
  have hwidth : ((m.pictureRows.headD []).length : Int) = m.grid.width := by
    cases hrows : m.pictureRows with
    | nil =>
      have hlength := m.length_pictureRows
      rw [hrows, List.length_nil] at hlength
      have hheight := h.height
      omega
    | cons row rest =>
      rw [List.headD_cons, Map.length_of_mem_pictureRows (hrows ▸ List.mem_cons_self)]
      exact Int.toNat_of_nonneg h.width.le
  have hheight : (m.pictureRows.length : Int) = m.grid.height := by
    rw [m.length_pictureRows]
    exact Int.toNat_of_nonneg h.height.le
  have htiles : m.pictureRows.flatten.map tile = m.grid.tiles.toList := by
    rw [Map.flatten_pictureRows, List.map_map, ← Grid.map_tileAt_points h.size]
    exact List.map_congr_left fun p hp => tile_charAt h (Grid.mem_points.mp hp)
  rw [grid, Map.lines_picture, hwidth, hheight, htiles]

theorem zipIdx_map_span {α : Type} (f : Int → α) (n : Int) :
    ((span 0 n).map f).zipIdx = (List.range n.toNat).map fun (k : Nat) => (f k, k) := by
  refine List.ext_getElem (by simp [span]) fun i hi hi' => ?_
  simp [span]

theorem places_picture (m : Map) (c : UInt8) :
    places m.picture c = m.grid.points.filter fun p => m.charAt p = c := by
  have hspan : ∀ n : Int, span 0 n = (List.range n.toNat).map fun (k : Nat) => (k : Int) := by
    intro n
    rw [span]
    exact List.map_congr_left fun k _ => Int.zero_add (k : Int)
  rw [places, Map.lines_picture, Map.pictureRows_eq, zipIdx_map_span, Grid.points, Rect.points,
    List.filter_flatMap, List.flatMap_map]
  show _ = (span 0 m.grid.height).flatMap _
  rw [hspan m.grid.height, List.flatMap_map]
  refine List.flatMap_congr fun y _ => ?_
  dsimp only
  show _ = ((span 0 m.grid.width).map fun x => (⟨x, (y : Int)⟩ : Point)).filter _
  rw [zipIdx_map_span, hspan m.grid.width, List.map_map, List.filter_map, List.filter_map,
    List.map_map]
  rfl

/-- The places of a mark are the centers of the rooms that have it. -/
theorem places_mark (h : WellLaid a m) (hcenters : (m.rooms.map fun r => r.center).Nodup)
    (hc : Map.NoGlyph c) :
    (places m.picture c).Perm
      ((m.rooms.filter fun r => r.kind.mark? = some c).map fun r => r.center) := by
  have hpoints : m.grid.points.Nodup :=
    (Rect.points_pairwise m.grid.frame).imp fun hbefore => hbefore.ne
  rw [places_picture]
  refine (List.perm_ext_iff_of_nodup (hpoints.filter _)
    (hcenters.sublist (List.filter_sublist.map _))).mpr fun p => ?_
  rw [List.mem_filter, List.mem_map, Grid.mem_points, decide_eq_true_iff]
  constructor
  · rintro ⟨hin, hp⟩
    obtain ⟨r, hr, hcenter, hmark⟩ := (Map.charAt_eq_mark hcenters hin hc).mp hp
    exact ⟨r, List.mem_filter.mpr ⟨hr, decide_eq_true hmark⟩, hcenter⟩
  · rintro ⟨r, hr, rfl⟩
    obtain ⟨hr, hmark⟩ := List.mem_filter.mp hr
    have hin := Grid.inBounds_of_mem_floor (h.center_mem_floor hr)
    exact ⟨hin, (Map.charAt_eq_mark hcenters hin hc).mpr ⟨r, hr, rfl, of_decide_eq_true hmark⟩⟩

/-- The picture of two rooms or more has the mark of the entrance once, on the center of the first
room, and that of the lair once, on the center of the last. -/
theorem places_many (h : WellLaid a m) (hcenters : (m.rooms.map fun r => r.center).Nodup)
    (hroles : Room.RolesByPlace m.rooms) (hlength : 2 ≤ m.rooms.length) :
    ∃ first last, m.rooms.head? = some first ∧ m.rooms.getLast? = some last ∧
      places m.picture (byte 'S') = [first.center] ∧ places m.picture (byte 'B') = [last.center] ∧
        places m.picture (byte 'X') = [] := by
  obtain ⟨first, middle, last, hrooms, hfirst, hmiddle, hlast⟩ := hroles.many hlength
  have hmarked (d : UInt8) : (m.rooms.filter fun r => r.kind.mark? = some d) =
      [first, last].filter fun r => r.kind.mark? = some d := by
    have hnone : (middle.filter fun r => r.kind.mark? = some d) = [] :=
      List.filter_eq_nil_iff.mpr fun r hr => by simp [hmiddle r hr, RoomKind.mark?]
    rw [hrooms, ← List.singleton_append, List.filter_append, List.filter_append, hnone,
      List.nil_append, ← List.filter_append, List.singleton_append]
  have hplaces {d : UInt8} (hd : Map.NoGlyph d) := places_mark h hcenters hd
  simp only [hmarked, List.filter_cons, List.filter_nil, hfirst, hlast] at hplaces
  refine ⟨first, last, by rw [hrooms]; rfl, ?_, ?_, ?_, ?_⟩
  · rw [hrooms, ← List.cons_append, List.getLast?_concat]
  · exact List.perm_singleton.mp (hplaces (d := byte 'S') (by decide))
  · exact List.perm_singleton.mp (hplaces (d := byte 'B') (by decide))
  · exact List.perm_nil.mp (hplaces (d := byte 'X') (by decide))

/-- The picture of one room has the mark of an entrance that is the lair once, on its center, and no
other. -/
theorem places_alone (h : WellLaid a m) (hcenters : (m.rooms.map fun r => r.center).Nodup)
    (hroles : Room.RolesByPlace m.rooms) (hlength : m.rooms.length = 1) :
    ∃ only, m.rooms = [only] ∧ places m.picture (byte 'X') = [only.center] ∧
      places m.picture (byte 'S') = [] ∧ places m.picture (byte 'B') = [] := by
  obtain ⟨only, hrooms⟩ := List.length_eq_one_iff.mp hlength
  have honly : only.kind = .spawnBoss := (hrooms ▸ hroles : Room.RolesByPlace [only]).alone
  have hplaces {d : UInt8} (hd : Map.NoGlyph d) := places_mark h hcenters hd
  simp only [hrooms, List.filter_cons, List.filter_nil, honly] at hplaces
  refine ⟨only, hrooms, ?_, ?_, ?_⟩
  · exact List.perm_singleton.mp (hplaces (d := byte 'X') (by decide))
  · exact List.perm_nil.mp (hplaces (d := byte 'S') (by decide))
  · exact List.perm_nil.mp (hplaces (d := byte 'B') (by decide))

end Picture

namespace Handover

open Picture

/-- The picture of a generated map has a line for every row and a character for every tile, and the
grid is read back from it. The marks of the entrance and of the lair are on the centers of the first
room and of the last, or one mark for both is on the center of the only room. There are no other
marks. -/
theorem generate_picture (h : Handover) (seed : UInt32) (a : Template)
    (hok : (h.generate seed a).1 = true) :
    let m := (h.generate seed a).2.map
    let rows := Text.lines m.picture
    m.picture = Text.unlines rows ∧
      (rows.length : Int) = m.grid.height ∧
      (∀ row ∈ rows, (row.length : Int) = m.grid.width) ∧
      Picture.grid m.picture = m.grid ∧
      m.rooms ≠ [] ∧
      (2 ≤ m.rooms.length →
        ∃ first last, m.rooms.head? = some first ∧ m.rooms.getLast? = some last ∧
          places m.picture (byte 'S') = [first.center] ∧
          places m.picture (byte 'B') = [last.center] ∧
          places m.picture (byte 'X') = []) ∧
      (m.rooms.length = 1 →
        ∃ only, m.rooms = [only] ∧
          places m.picture (byte 'X') = [only.center] ∧
          places m.picture (byte 'S') = [] ∧
          places m.picture (byte 'B') = []) := by
  intro m rows
  have hwell : WellLaid a m := generate_wellLaid hok
  have hcenters : (m.rooms.map fun r => r.center).Nodup := generate_centers hok
  have hroles : Room.RolesByPlace m.rooms := generate_roles hok
  have hrows : rows = m.pictureRows := m.lines_picture
  refine ⟨by rw [hrows]; rfl, ?_, fun row hrow => ?_, grid_picture hwell, hwell.someRoom,
    places_many hwell hcenters hroles, places_alone hwell hcenters hroles⟩
  · rw [hrows, m.length_pictureRows]
    exact Int.toNat_of_nonneg hwell.height.le
  · rw [Map.length_of_mem_pictureRows (hrows ▸ hrow)]
    exact Int.toNat_of_nonneg hwell.width.le

/-- Scattered rooms on a map of twelve by eight tiles, from seed 1: there is more than one, and the
picture shows the entrance and the lair. -/
theorem generate_picture_wide :
    let outcome := Handover.generate {} 1 { algorithm := .scatter, width := 12, height := 8 }
    let m := outcome.2.map
    outcome.1 = true ∧ 2 ≤ m.rooms.length ∧
      ∃ first last, m.rooms.head? = some first ∧ m.rooms.getLast? = some last ∧
        places m.picture (byte 'S') = [first.center] ∧
        places m.picture (byte 'B') = [last.center] ∧
        places m.picture (byte 'X') = [] := by
  have hok :
      (Handover.generate {} 1 { algorithm := .scatter, width := 12, height := 8 }).1 = true := by
    decide +kernel
  have hmany : 2 ≤ (Handover.generate {} 1
      { algorithm := .scatter, width := 12, height := 8 }).2.map.rooms.length := by decide +kernel
  obtain ⟨_, _, _, _, _, hmarks, _⟩ :=
    generate_picture {} 1 { algorithm := .scatter, width := 12, height := 8 } hok
  exact ⟨hok, hmany, hmarks hmany⟩

end Handover
end Dungeon
