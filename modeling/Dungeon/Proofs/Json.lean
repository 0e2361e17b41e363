import Dungeon.Proofs.Grid
import Dungeon.Proofs.JsonSpelling
import Dungeon.Proofs.Printer

/-!
# Maps are read back

The JSON text of a map is read as one document, and the document says of the map all that makes up
its layout. What a number loses when it is printed concerns the densities only.

Results:
1. `Json.Spells.tiles`, `Json.Spells.room`, `Json.Spells.corridor`, `Json.Spells.template`: each
   part is read as the value that belongs to it.
2. `Json.sameLayout_of_document`: two maps with one document have the same layout.
3. `Json.ofMap_faithful`: the text of a map is its document, and two maps with one text have the
   same layout.
-/

namespace Dungeon

open Text (byte)

/-- The tile has a tag of its own. -/
def Tile.Listed (t : Tile) : Prop := ∀ c, t ≠ .unlisted c

/-- The role has a tag of its own. -/
def RoomKind.Listed (k : RoomKind) : Prop := ∀ c, k ≠ .unlisted c

theorem Tile.eq_of_tag {s t : Tile} (hs : s.Listed) (ht : t.Listed) (h : s.tag = t.tag) :
    s = t := by
  cases s with
  | unlisted c => exact absurd rfl (hs c)
  | _ =>
    cases t with
    | unlisted c => exact absurd rfl (ht c)
    | _ => first | rfl | exact absurd h (by decide)

theorem RoomKind.eq_of_tag {k l : RoomKind} (hk : k.Listed) (hl : l.Listed) (h : k.tag = l.tag) :
    k = l := by
  cases k with
  | unlisted c => exact absurd rfl (hk c)
  | _ =>
    cases l with
    | unlisted c => exact absurd rfl (hl c)
    | _ => first | rfl | exact absurd h (by decide)

namespace Json

/-! ## Documents -/

namespace Value

def int (n : Int) : Value := .number n

def point (p : Point) : Value := .array [int p.x, int p.y]

/-- The nine fields of a room. -/
def room (r : Room) : Value :=
  .object
    [("id", int r.id), ("x", int r.x), ("y", int r.y), ("w", int r.w), ("h", int r.h),
     ("type", .string r.kind.tag), ("monsters", int r.monsters), ("treasures", int r.treasures),
     ("traps", int r.traps)]

/-- The ends of a corridor and its path. -/
def corridor (c : Corridor) : Value :=
  .object [("room_a", int c.roomA), ("room_b", int c.roomB), ("path", .array (c.path.map point))]

/-- A template whose densities are printed as these numbers. -/
def template (a : Template) (monsters treasures traps : Rat) : Value :=
  .object
    [("name", .string a.name), ("theme", .string a.theme.info.id),
     ("algorithm", .string a.algorithm.id), ("monster_density", .number monsters),
     ("treasure_density", .number treasures), ("trap_density", .number traps),
     ("recommended_level", int a.level), ("width", int a.width), ("height", int a.height)]

/-- What the text of a map is to say. -/
def document (m : Map) (monsters treasures traps : Rat) : Value :=
  .object
    [("width", int m.grid.width), ("height", int m.grid.height),
     ("tiles", .array (m.grid.tiles.toList.map fun t => .string t.tag)),
     ("rooms", .array (m.rooms.map room)), ("corridors", .array (m.corridors.map corridor)),
     ("seed", int m.seed.toNat), ("template", template m.area monsters treasures traps)]

end Value

/-! ## Parts of a map -/

theorem Spells.point (p : Point) : Spells (point p) (.point p) :=
  .array ⟨by decide, rfl⟩ ⟨by decide, rfl⟩ ⟨by decide, rfl⟩ <|
    .cons (.int p.x) (.cons (.int p.y) .nil)

theorem spells_map {α : Type} {print : α → Text} {value : α → Value}
    (h : ∀ a, Spells (print a) (value a)) (l : List α) :
    List.Forall₂ Spells (l.map print) (l.map value) := by
  rw [List.forall₂_map_left_iff, List.forall₂_map_right_iff]
  exact List.forall₂_same.mpr fun a _ => h a

/-- The braces of an object on one line. -/
theorem Spells.inlineObject {texts : List Text} {ms : List (Text × Value)}
    (h : List.Forall₂ SpellsMember texts ms) : Spells (inlineObject texts) (.object ms) :=
  .object ⟨by decide, rfl⟩ ⟨by decide, rfl⟩ ⟨by decide, rfl⟩ h

theorem Spells.room (r : Room) : Spells (room r) (.room r) :=
  .inlineObject <|
    .cons (.of (.int r.id)) <| .cons (.of (.int r.x)) <| .cons (.of (.int r.y)) <|
    .cons (.of (.int r.w)) <| .cons (.of (.int r.h)) <| .cons (.of (.string r.kind.tag)) <|
    .cons (.of (.int r.monsters)) <| .cons (.of (.int r.treasures)) <|
    .cons (.of (.int r.traps)) .nil

theorem Spells.corridor (c : Corridor) : Spells (corridor c) (.corridor c) :=
  .inlineObject <|
    .cons (.of (.int c.roomA)) <| .cons (.of (.int c.roomB)) <|
    .cons (.of (.array ⟨by decide, rfl⟩ ⟨by decide, rfl⟩ ⟨by decide, rfl⟩
      (spells_map Spells.point c.path))) .nil

theorem Spells.lineArray {texts : List Text} {vs : List Value} (h : List.Forall₂ Spells texts vs) :
    Spells (lineArray texts) (.array vs) := by
  have hcomma : Mark ",\n    " .comma := ⟨by decide, rfl⟩
  cases h with
  | nil =>
    have hstart : Mark "[" .beginArray := ⟨by decide, rfl⟩
    have hstop : Mark "\n  ]" .endArray := ⟨by decide, rfl⟩
    exact .array hstart hcomma hstop .nil
  | cons hfirst hrest => exact .array ⟨by decide, rfl⟩ hcomma ⟨by decide, rfl⟩ (.cons hfirst hrest)

theorem Spells.lineObject (indent : Nat) {texts : List Text} {ms : List (Text × Value)}
    (h : List.Forall₂ SpellsMember texts ms) : Spells (lineObject indent texts) (.object ms) := by
  have hmargin : ∀ n, ∀ c ∈ List.replicate n (byte ' '), isSpace c = true := by
    intro n c hc
    rw [List.eq_of_mem_replicate hc]
    decide
  have hnewline : ∀ c ∈ Text.lit "\n", isSpace c = true :=
    fun c hc => List.all_eq_true.mp (by decide) c hc
  have hstart : Mark "\x7b\n" .beginObject := ⟨by decide, rfl⟩
  have hsep : Mark ",\n" .comma := ⟨by decide, rfl⟩
  have hstop : Mark "\x7d" .endObject := ⟨by decide, rfl⟩
  have hobject := Spells.object (hstart.append_blanks (hmargin (indent + 2)))
    (hsep.append_blanks (hmargin (indent + 2)))
    ((hstop.blanks_append (hmargin indent)).blanks_append hnewline) h
  simpa only [Json.lineObject, List.append_assoc] using hobject

/-! ## Tiles -/

/-- The tokens of the tile on a point. -/
def tileTokens (g : Grid) (p : Point) : List Token :=
  .scalar (.string (g.tileAt p).tag) ::
    if p.y + 1 < g.height ∨ p.x + 1 < g.width then [.comma] else []

theorem lexes_tile (g : Grid) (p : Point) : Lexes (tile g p) (tileTokens g p) := by
  have hcomma : Mark "," .comma := ⟨by decide, rfl⟩
  have hquoted := Lexes.quoted (g.tileAt p).tag
  rw [tile, tileTokens]
  split
  · exact hquoted.append hcomma.lexes
  · exact hquoted.append Lexes.nil

/-- Items with a comma after each but the last are separated. -/
theorem flatMap_separated {α : Type} (f : α → List Token) (init : List α) (last : α) :
    (init.flatMap fun a => f a ++ [.comma]) ++ f last = separated ((init ++ [last]).map f) := by
  induction init with
  | nil => rfl
  | cons a init ih =>
    rw [List.flatMap_cons, List.append_assoc, List.append_assoc, ih]
    cases init <;> rfl

/-- Exactly the last tile of the last row has no comma. -/
theorem flatMap_tileTokens {g : Grid} (hwidth : 0 < g.width) (hheight : 0 < g.height) :
    g.points.flatMap (tileTokens g) =
      separated (g.points.map fun p => [.scalar (.string (g.tileAt p).tag)]) := by
  let corner : Point := ⟨g.width - 1, g.height - 1⟩
  have hcorner : corner ∈ g.points := by
    rw [Grid.mem_points, Grid.inBounds_iff]
    dsimp only [corner]
    omega
  obtain ⟨init, last, hpoints⟩ : ∃ init last, g.points = init ++ [last] :=
    List.eq_nil_or_concat' g.points |>.resolve_left (List.ne_nil_of_mem hcorner)
  have hsorted := Rect.points_pairwise g.frame
  rw [← Grid.points, hpoints, List.pairwise_append] at hsorted
  have hbefore : ∀ p ∈ init, p.Before last := fun p hp => hsorted.2.2 p hp last List.mem_cons_self
  have hin : g.inBounds last = true := Grid.mem_points.mp (by rw [hpoints]; simp)
  obtain ⟨hx, hy, hw, hh⟩ := Grid.inBounds_iff.mp hin
  have hcommas : ∀ p ∈ init, tileTokens g p = [.scalar (.string (g.tileAt p).tag)] ++ [.comma] := by
    intro p hp
    have hp := hbefore p hp
    rw [tileTokens, if_pos]
    · rfl
    · unfold Point.Before at hp
      omega
  have hlast : tileTokens g last = [.scalar (.string (g.tileAt last).tag)] := by
    rw [tileTokens, if_neg]
    -- The corner is the last point, for it is not before any point inside.
    rw [hpoints] at hcorner
    rcases List.mem_append.mp hcorner with hinit | hlast
    · have hafter := hbefore corner hinit
      unfold Point.Before at hafter
      dsimp only [corner] at hafter
      omega
    · rw [← List.mem_singleton.mp hlast]
      dsimp only [corner]
      omega
  rw [hpoints, List.flatMap_append, List.flatMap_singleton, hlast, List.flatMap_congr hcommas]
  exact flatMap_separated (fun p => [.scalar (.string (g.tileAt p).tag)]) init last

theorem lexes_tiles (g : Grid) :
    Lexes (tiles g) (.beginArray :: (g.points.flatMap (tileTokens g) ++ [.endArray])) := by
  have hstart : Mark "[" .beginArray := ⟨by decide, rfl⟩
  have hstop : Mark "\n  ]" .endArray := ⟨by decide, rfl⟩
  have hblank : Lexes "\n    " [] := Lexes.signs (List.all_eq_true.mp (by decide))
  have hrow : ∀ y, Lexes ("\n    " ++ (span 0 g.width).flatMap fun x => tile g ⟨x, y⟩)
      ((span 0 g.width).flatMap fun x => tileTokens g ⟨x, y⟩) := fun y =>
    hblank.append (Lexes.flatMap fun x _ => lexes_tile g ⟨x, y⟩)
  have hrows := Lexes.flatMap (l := span 0 g.height) fun y _ => hrow y
  have hpoints : g.points.flatMap (tileTokens g) =
      (span 0 g.height).flatMap fun y => (span 0 g.width).flatMap fun x => tileTokens g ⟨x, y⟩ := by
    rw [Grid.points, Rect.points, List.flatMap_assoc]
    simp only [List.flatMap_map]
    rfl
  rw [hpoints]
  exact (hstart.lexes.append hrows).append hstop.lexes

theorem Spells.tiles {g : Grid} (hwidth : 0 < g.width) (hheight : 0 < g.height)
    (hsize : g.tiles.size = g.width.toNat * g.height.toNat) :
    Spells (tiles g) (.array (g.tiles.toList.map fun t => .string t.tag)) := by
  have hparses : Parses (.beginArray :: (separated (g.points.map fun p =>
      [.scalar (.string (g.tileAt p).tag)]) ++ [.endArray]))
      (.array (g.tiles.toList.map fun t => .string t.tag)) := by
    refine .array ?_
    rw [← Grid.map_tileAt_points hsize, List.map_map, List.forall₂_map_left_iff,
      List.forall₂_map_right_iff]
    exact List.forall₂_same.mpr fun p _ => .scalar _
  have hlexes := lexes_tiles g
  rw [flatMap_tileTokens hwidth hheight] at hlexes
  exact ⟨_, hlexes.lexesWord, hparses⟩

/-! ## Whole maps -/

/-- The sides are positive, the grid has a tile for each point, and tiles and roles have tags of
their own. The densities are printed as these numbers. -/
structure Writable (m : Map) (monsters treasures traps : Rat) : Prop where
  width_pos : 0 < m.grid.width
  height_pos : 0 < m.grid.height
  size : m.grid.tiles.size = m.grid.width.toNat * m.grid.height.toNat
  tiles : ∀ t ∈ m.grid.tiles, t.Listed
  kinds : ∀ r ∈ m.rooms, r.kind.Listed
  monsters : number? m.area.monsterDensity.toText = some monsters
  treasures : number? m.area.treasureDensity.toText = some treasures
  traps : number? m.area.trapDensity.toText = some traps

variable {m n : Map} {monsters treasures traps monsters' treasures' traps' : Rat}

theorem Spells.template (h : Writable m monsters treasures traps) :
    Spells (template m.area) (.template m.area monsters treasures traps) :=
  .lineObject 2 <|
    .cons (.of (.string m.area.name)) <| .cons (.of (.string m.area.theme.info.id)) <|
    .cons (.of (.string m.area.algorithm.id)) <| .cons (.of (.number h.monsters)) <|
    .cons (.of (.number h.treasures)) <| .cons (.of (.number h.traps)) <|
    .cons (.of (.int m.area.level)) <| .cons (.of (.int m.area.width)) <|
    .cons (.of (.int m.area.height)) .nil

theorem read?_ofMap (h : Writable m monsters treasures traps) :
    read? (ofMap m) = some (.document m monsters treasures traps) := by
  unfold ofMap
  refine Spells.read?_eq (.lineObject 0 ?_) (List.all_eq_true.mp (by decide))
  exact
    .cons (.of (.int m.grid.width)) <| .cons (.of (.int m.grid.height)) <|
    .cons (.of (.tiles h.width_pos h.height_pos h.size)) <|
    .cons (.of (.lineArray (spells_map Spells.room m.rooms))) <|
    .cons (.of (.lineArray (spells_map Spells.corridor m.corridors))) <|
    .cons (.of (.int m.seed.toNat)) <| .cons (.of (Spells.template h)) .nil

/-! ## What a document says -/

theorem map_inj_of_mem {α β : Type} {f : α → β} {l l' : List α}
    (hf : ∀ a ∈ l, ∀ b ∈ l', f a = f b → a = b) (h : l.map f = l'.map f) : l = l' := by
  induction l generalizing l' with
  | nil => exact (List.map_eq_nil_iff.mp h.symm).symm
  | cons a l ih =>
    cases l' with
    | nil => cases h
    | cons b l' =>
      obtain ⟨hab, hrest⟩ := List.cons.inj h
      have htail := ih (fun c hc d hd =>
        hf c (List.mem_cons_of_mem a hc) d (List.mem_cons_of_mem b hd)) hrest
      rw [hf a List.mem_cons_self b List.mem_cons_self hab, htail]

theorem Value.int_inj {a b : Int} (h : Value.int a = Value.int b) : a = b :=
  Int.cast_injective (Value.number.inj h)

theorem Value.point_inj {p q : Point} (h : Value.point p = Value.point q) : p = q := by
  obtain ⟨x, y⟩ := p
  obtain ⟨x', y'⟩ := q
  simp only [Value.point, Value.array.injEq, List.cons.injEq, and_true] at h
  rw [Value.int_inj h.1, Value.int_inj h.2]

theorem Value.room_inj {r s : Room} (hr : r.kind.Listed) (hs : s.kind.Listed)
    (h : Value.room r = Value.room s) : r = s := by
  obtain ⟨⟨x, y, w, height⟩, id, kind, monsters, treasures, traps⟩ := r
  obtain ⟨⟨x', y', w', height'⟩, id', kind', monsters', treasures', traps'⟩ := s
  simp only [Value.room, Value.object.injEq, List.cons.injEq, Prod.mk.injEq, true_and, and_true,
    Value.string.injEq, Value.int, Value.number.injEq, Int.cast_inj] at h
  obtain ⟨rfl, rfl, rfl, rfl, rfl, hkind, rfl, rfl, rfl⟩ := h
  rw [show kind = kind' from RoomKind.eq_of_tag hr hs hkind]

theorem Value.corridor_inj {c d : Corridor} (h : Value.corridor c = Value.corridor d) : c = d := by
  obtain ⟨a, b, path⟩ := c
  obtain ⟨a', b', path'⟩ := d
  simp only [Value.corridor, Value.object.injEq, List.cons.injEq, Prod.mk.injEq, true_and, and_true,
    Value.array.injEq, Value.int, Value.number.injEq, Int.cast_inj] at h
  obtain ⟨rfl, rfl, hpath⟩ := h
  rw [map_inj_of_mem (fun p _ q _ hpq => Value.point_inj hpq) hpath]

/-- A document tells the layout of its map. -/
theorem sameLayout_of_document (hm : Writable m monsters treasures traps)
    (hn : Writable n monsters' treasures' traps')
    (h : Value.document m monsters treasures traps =
      Value.document n monsters' treasures' traps') : m.sameLayout n = true := by
  simp only [Value.document, Value.object.injEq, List.cons.injEq, Prod.mk.injEq, true_and, and_true,
    Value.array.injEq, Value.int, Value.number.injEq, Int.cast_inj, Nat.cast_inj] at h
  obtain ⟨hwidth, hheight, htiles, hrooms, hcorridors, hseed, -⟩ := h
  have hgrid : m.grid = n.grid := by
    have htiles' : m.grid.tiles.toList = n.grid.tiles.toList := by
      refine map_inj_of_mem (fun s hs t ht hst => ?_) htiles
      exact Tile.eq_of_tag (hm.tiles s (Array.mem_toList_iff.mp hs))
        (hn.tiles t (Array.mem_toList_iff.mp ht)) (Value.string.inj hst)
    calc m.grid = ⟨m.grid.width, m.grid.height, m.grid.tiles⟩ := rfl
      _ = ⟨n.grid.width, n.grid.height, n.grid.tiles⟩ := by
          rw [hwidth, hheight, Array.toList_inj.mp htiles']
      _ = n.grid := rfl
  have hrooms' : m.rooms = n.rooms :=
    map_inj_of_mem (fun r hr s hs => Value.room_inj (hm.kinds r hr) (hn.kinds s hs)) hrooms
  have hcorridors' : m.corridors = n.corridors :=
    map_inj_of_mem (fun c _ d _ => Value.corridor_inj) hcorridors
  have hseed' : m.seed = n.seed := UInt32.toNat_inj.mp hseed
  rw [Map.sameLayout, hgrid, hrooms', hcorridors', hseed']
  simp only [beq_self_eq_true, Bool.and_self]

/-- The text of a map is one JSON document. It says the size, the tags of the tiles row by row, the
rooms and corridors in their order, the seed, and of the template the name byte for byte and all the
rest. So maps with one text have the same layout. The densities are numbers whenever they are
finite. -/
theorem ofMap_faithful (h : Writable m monsters treasures traps) :
    read? (ofMap m) = some (.document m monsters treasures traps) ∧
      (∀ n monsters' treasures' traps', Writable n monsters' treasures' traps' →
        ofMap n = ofMap m → m.sameLayout n = true) ∧
      ∀ x : Number.Single, (∃ y, number? x.toText = some y) ↔ x.IsFinite := by
  refine ⟨read?_ofMap h, fun n monsters' treasures' traps' hn htext => ?_, exists_number?_toText⟩
  have hdocument := read?_ofMap hn
  rw [htext, read?_ofMap h] at hdocument
  exact sameLayout_of_document h hn (Option.some.inj hdocument)

/-- A wall, a floor and a door, corridors with and without a path, and a name that has to be
escaped. -/
theorem ofMap_faithful_doorway :
    let m : Map :=
      { grid := ⟨3, 1, #[.wall, .floor, .door]⟩
        rooms := [{ Room.ofRect 0 ⟨1, 0, 1, 1⟩ with kind := .spawnBoss, monsters := -2 }]
        corridors := [⟨0, 0, []⟩, ⟨0, 0, [⟨1, 0⟩, ⟨2, 0⟩]⟩]
        seed := 7
        area :=
          { name := "\x7b\"\\\n", monsterDensity := .percent 25, treasureDensity := .percent 25,
            trapDensity := .percent 25 } }
    Writable m (1 / 4) (1 / 4) (1 / 4) ∧
      read? (ofMap m) = some (.document m (1 / 4) (1 / 4) (1 / 4)) ∧ m.sameLayout m = true := by
  intro m
  have hquarter : number? (Number.Binary.percent 25).toText = some (1 / 4) := by
    have htext : (Number.Binary.percent 25).toText = "0" ++ byte '.' :: Text.lit "25" := by
      decide +kernel
    have hread : fixed? ("0" ++ byte '.' :: Text.lit "25") =
        some (((0 : Nat) : Rat) + (25 : Nat) / 10 ^ 2) := fixed?_point (by decide) (by decide)
    rw [htext, number?_of_unsigned? (unsigned?_of_fixed? hread)]
    norm_num
  have hwritable : Writable m (1 / 4) (1 / 4) (1 / 4) :=
    { width_pos := by decide
      height_pos := by decide
      size := rfl
      tiles := by
        rintro t ht c rfl
        simp [m] at ht
      kinds := by
        rintro r hr c hc
        rw [List.mem_singleton.mp hr] at hc
        cases hc
      monsters := hquarter
      treasures := hquarter
      traps := hquarter }
  have hfaithful := ofMap_faithful hwritable
  exact ⟨hwritable, hfaithful.1, hfaithful.2.1 m _ _ _ hwritable rfl⟩

end Json
end Dungeon
