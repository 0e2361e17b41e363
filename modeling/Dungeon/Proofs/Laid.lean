import Dungeon.Proofs.Audit
import Dungeon.Proofs.Cavern
import Dungeon.Proofs.Plan
import Dungeon.Proofs.Populate

/-!
# Maps that are laid out

The layouts differ in how they come to a floor, but what they promise of it is the same, and
`WellLaid` is that promise. A plan of rooms and corridors keeps it and a cave keeps it, populating
does not break it, and a populated map that keeps it passes its audit.

Results:
1. `WellLaid.of_plan`, `WellLaid.of_cave`: what layouts leave is laid out well.
2. `WellLaid.of_bare`: populating leaves it so.
3. `WellLaid.sound`: a map that is laid out well is sound, if its rooms hold no negative counts.
-/

namespace Dungeon

/-- Nothing of the set lies on the outermost ring of the map. -/
def OffRing (width height : Int) (s : Set Point) : Prop :=
  ∀ p ∈ s, (0 < p.x ∧ p.x + 1 < width) ∧ 0 < p.y ∧ p.y + 1 < height

/-- What the layout of a template promises of a map. -/
structure WellLaid (a : Template) (m : Map) : Prop where
  area : m.area = a
  width : 0 < m.grid.width
  height : 0 < m.grid.height
  size : m.grid.tiles.size = m.grid.width.toNat * m.grid.height.toNat
  plain : m.grid.Plain
  someRoom : m.rooms ≠ []
  number : ∀ (n : Nat) (r : Room), m.rooms[n]? = some r → r.id = n
  sides : ∀ r ∈ m.rooms, 1 ≤ r.w ∧ 1 ≤ r.h
  rooms : ∀ r ∈ m.rooms, ∀ p, r.contains p = true → p ∈ m.grid.floor
  walks : ∀ c ∈ m.corridors, Walks c.path
  onePiece : InOnePiece m.grid.floor
  plan : a.algorithm ≠ .cavern →
    (m.rooms.Pairwise fun r t => r.meets t.toRect a.padding = false) ∧
      m.grid.floor = Grid.footprint m.rooms m.corridors ∧
      OffRing m.grid.width m.grid.height m.grid.floor

/-! ## What layouts leave -/

section Layouts

variable {a : Template} {m : Map}

/-- A map of wall for a template, as layouts are run on. -/
structure Blank (a : Template) (m : Map) : Prop where
  area : m.area = a
  width : 0 < m.grid.width
  height : 0 < m.grid.height
  size : m.grid.tiles.size = m.grid.width.toNat * m.grid.height.toNat

theorem WellLaid.of_plan {rooms : List Room} {corridors : List Corridor} (hblank : Blank a m)
    (h : WellPlanned m.grid.width m.grid.height 1 1 a.padding rooms corridors) :
    WellLaid a (m.ofPlan rooms corridors) := by
  have hfull : m.grid.Full := hblank.size.ge
  obtain ⟨hcarved, hcarved', hsize, _⟩ := Grid.carvePlan_spec hfull.filled rooms corridors
  have hwidth : (m.ofPlan rooms corridors).grid.width = m.grid.width := hcarved
  have hheight : (m.ofPlan rooms corridors).grid.height = m.grid.height := hcarved'
  have hfloor := h.floor_ofPlan hfull le_rfl zero_le_one
  refine ⟨hblank.area, ?_, ?_, ?_, ?_, h.rooms_ne_nil, h.number, h.sides, ?_, ?_, ?_, fun _ => ?_⟩
  · exact hwidth.symm ▸ hblank.width
  · exact hheight.symm ▸ hblank.height
  · rw [hwidth, hheight, ← hblank.size]
    exact hsize.trans (Grid.size_tiles_filled m.grid)
  · exact m.grid.plain_filled.carvePlan rooms corridors
  · rw [hfloor]
    exact fun r hr p hp => .inl ⟨r, hr, hp⟩
  · intro c hc
    obtain ⟨r, _, t, _, bend, rfl⟩ := h.between c hc
    exact bend.path_walks _ _
  · rw [hfloor]
    exact h.inOnePiece le_rfl
  · refine ⟨h.apart, hfloor, fun p hp => ?_⟩
    rw [hfloor] at hp
    have hborder := h.footprint_in_border le_rfl hp
    rw [hwidth, hheight]
    omega

theorem getElem?_numbered {chambers : List Rect} {n : Nat} {r : Room}
    (h : (numbered 0 chambers)[n]? = some r) : ∃ c ∈ chambers, r = Room.ofRect n c := by
  rw [numbered, List.getElem?_map, List.getElem?_zipIdx, Option.map_map,
    Option.map_eq_some_iff] at h
  obtain ⟨c, hc, rfl⟩ := h
  exact ⟨c, List.mem_of_getElem? hc, by rw [Function.comp_apply, Nat.zero_add]⟩

theorem WellLaid.of_cave {laid : Map} {s : Set Point} {q : Point} (hblank : Blank a m)
    (halgorithm : a.algorithm = .cavern) (h : IsCave m (region s q) laid) : WellLaid a laid := by
  obtain ⟨chambers, hne, hrooms, hfilled⟩ := h.chambers
  have hroom : ∀ r ∈ laid.rooms, ∃ c ∈ chambers, r.toRect = c := by
    intro r hr
    obtain ⟨n, hn⟩ := List.mem_iff_getElem?.mp hr
    rw [hrooms] at hn
    obtain ⟨c, hc, rfl⟩ := getElem?_numbered hn
    exact ⟨c, hc, rfl⟩
  refine ⟨h.area.trans hblank.area, ?_, ?_, ?_, h.plain, ?_, ?_, ?_, ?_, ?_, ?_, ?_⟩
  · exact h.width.symm ▸ hblank.width
  · exact h.height.symm ▸ hblank.height
  · rw [h.size hblank.size, h.width, h.height]
    exact hblank.size
  · rw [hrooms]
    intro hnil
    have hlength := congrArg List.length hnil
    rw [numbered, List.length_map, List.length_zipIdx, List.length_nil] at hlength
    exact hne (List.length_eq_zero_iff.mp hlength)
  · intro n r hr
    rw [hrooms] at hr
    obtain ⟨c, _, rfl⟩ := getElem?_numbered hr
    rfl
  · intro r hr
    obtain ⟨c, hc, hrect⟩ := hroom r hr
    have hsides := hfilled c hc
    rw [← hrect] at hsides
    exact ⟨hsides.width, hsides.height⟩
  · intro r hr p hp
    obtain ⟨c, hc, hrect⟩ := hroom r hr
    exact (hfilled c hc).passes p (hrect ▸ hp)
  · rw [h.corridors]
    intro c hc
    cases hc
  · rw [h.floor]
    exact region_inOnePiece s q
  · exact fun hnot => absurd halgorithm hnot

end Layouts

/-! ## Populated maps -/

section Populated

variable {a : Template} {m : Map}

theorem WellLaid.of_bare {rooms : List Room} (h : WellLaid a m)
    (hbare : rooms.map Room.bare = m.rooms.map Room.bare) : WellLaid a { m with rooms } where
  area := h.area
  width := h.width
  height := h.height
  size := h.size
  plain := h.plain
  someRoom := fun hnil => by
    have hnone : rooms.length = 0 := List.length_eq_zero_iff.mpr hnil
    exact h.someRoom (List.length_eq_zero_iff.mp ((length_bare hbare).symm.trans hnone))
  number := Room.Numbered.of_bare h.number hbare
  sides := fun r hr => by
    obtain ⟨t, ht, _, hrect⟩ := exists_bare hbare hr
    exact hrect ▸ h.sides t ht
  rooms := fun r hr p hp => by
    obtain ⟨t, ht, _, hrect⟩ := exists_bare hbare hr
    exact h.rooms t ht p (hrect ▸ hp)
  walks := h.walks
  onePiece := h.onePiece
  plan := fun halgorithm => by
    obtain ⟨hapart, hfloor, hring⟩ := h.plan halgorithm
    -- Whether rooms meet can be told from the bare ones, and these are the same.
    have hpair : (m.rooms.map Room.bare).Pairwise fun r t => r.meets t.toRect a.padding = false :=
      List.pairwise_map.mpr hapart
    rw [← hbare] at hpair
    exact ⟨List.pairwise_map.mp hpair, hfloor.trans (footprint_bare hbare).symm, hring⟩

theorem WellLaid.tileAt (h : WellLaid a m) {p : Point} (hp : m.grid.inBounds p = true) :
    m.grid.tileAt p = .wall ∨ m.grid.tileAt p = .floor := by
  have hlt : m.grid.index p < m.grid.tiles.size := by
    rw [h.size]
    exact Grid.index_lt hp
  rw [Grid.tileAt_eq hp, Array.getD_eq_getD_getElem?, Array.getElem?_eq_getElem hlt,
    Option.getD_some]
  exact h.plain _ (Array.getElem_mem hlt)

theorem WellLaid.tileAt_ring (h : WellLaid a m) (halgorithm : a.algorithm ≠ .cavern) {p : Point}
    (hin : m.grid.inBounds p = true)
    (hp : p.x = 0 ∨ p.x = m.grid.width - 1 ∨ p.y = 0 ∨ p.y = m.grid.height - 1) :
    m.grid.tileAt p = .wall := by
  cases h.tileAt hin with
  | inl hwall => exact hwall
  | inr hfloor =>
    have hmem : p ∈ m.grid.floor := by
      rw [Grid.mem_floor, Grid.isFloor, hfloor]
      rfl
    have hoff := (h.plan halgorithm).2.2 p hmem
    omega

/-- A rectangle of floor lies on the map: its first and its last point do. -/
theorem WellLaid.inside (h : WellLaid a m) {r : Room} (hr : r ∈ m.rooms) :
    (0 ≤ r.x ∧ r.right ≤ m.grid.width) ∧ 0 ≤ r.y ∧ r.bottom ≤ m.grid.height := by
  have hsides := h.sides r hr
  have hcorner : ∀ p, r.contains p = true → m.grid.inBounds p = true := fun p hp =>
    Grid.inBounds_of_mem_floor (h.rooms r hr p hp)
  have hfirst := hcorner ⟨r.x, r.y⟩ (by rw [Rect.contains_iff]; simp only; omega)
  have hlast := hcorner ⟨r.x + r.w - 1, r.y + r.h - 1⟩
    (by rw [Rect.contains_iff]; simp only; omega)
  rw [Grid.inBounds_iff] at hfirst hlast
  simp only [Rect.right, Rect.bottom] at *
  omega

theorem WellLaid.center_mem_floor (h : WellLaid a m) {r : Room} (hr : r ∈ m.rooms) :
    r.center ∈ m.grid.floor := by
  have hsides := h.sides r hr
  exact h.rooms r hr _ (Rect.contains_center (by omega) (by omega))

/-- A map that is laid out well passes its audit, if no room holds a negative count. -/
theorem WellLaid.sound (h : WellLaid a m) (hstocked : ∀ r ∈ m.rooms, r.Stocked) :
    m.Sound a.padding where
  area := ⟨h.width, h.height⟩
  tiles := by
    rw [h.size, Nat.cast_mul, Int.toNat_of_nonneg h.width.le, Int.toNat_of_nonneg h.height.le]
  someRoom := h.someRoom
  rooms := fun n r hr => by
    have hmem := List.mem_of_getElem? hr
    have hcounts := hstocked r hmem
    exact ⟨h.number n r hr, h.sides r hmem, h.inside hmem,
      hcounts.monsters, hcounts.treasures, hcounts.traps⟩
  corridors := h.walks
  plan := fun halgorithm => by
    rw [h.area] at halgorithm
    obtain ⟨hapart, hfloor, _⟩ := h.plan halgorithm
    exact ⟨hapart, hfloor.subset⟩
  reach := by
    obtain ⟨first, rest, hrooms⟩ := List.exists_cons_of_ne_nil h.someRoom
    have hfirst : first ∈ m.rooms := hrooms ▸ List.mem_cons_self
    refine ⟨first, by rw [hrooms]; rfl, fun r hr => ⟨h.center_mem_floor hfirst, ?_⟩⟩
    exact h.onePiece _ (h.center_mem_floor hfirst) _ (h.center_mem_floor hr)

end Populated

end Dungeon
