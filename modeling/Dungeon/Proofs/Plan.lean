import Dungeon.Proofs.Grid
import Dungeon.Proofs.Link
import Dungeon.Proofs.Region

/-!
# Plans of rooms and corridors

A plan is a list of rooms and a list of corridors. Layouts that place rooms make plans with the
properties gathered in `WellPlanned`, and everything about the floor of such a map follows from
them: the floor is what the plan covers, it is in one piece, and it keeps to a border of wall.

Results:
1. `WellPlanned.inOnePiece`: what a plan covers is in one piece.
2. `WellPlanned.footprint_in_border`: it keeps to the border.
3. `WellPlanned.floor_ofPlan`: it is the floor of the map.
4. `footprint_bare`: what rooms hold does not matter to what the plan covers.
-/

namespace Dungeon

/-! ## The numbers of rooms -/

section Numbers

variable {rooms : List Room}

/-- The rooms have the numbers of their places. -/
def Room.Numbered (rooms : List Room) : Prop :=
  ∀ (n : Nat) (room : Room), rooms[n]? = some room → room.id = n

theorem Room.Numbered.concat {r : Room} (h : Room.Numbered rooms) (hid : r.id = rooms.length) :
    Room.Numbered (rooms ++ [r]) := by
  intro n room hroom
  cases Nat.lt_or_ge n rooms.length with
  | inl hn =>
    rw [List.getElem?_append_left hn] at hroom
    exact h n room hroom
  | inr hn =>
    rw [List.getElem?_append_right hn] at hroom
    obtain ⟨hlt, hroom⟩ := List.getElem?_eq_some_iff.mp hroom
    rw [List.length_singleton] at hlt
    have hlast : n = rooms.length := by omega
    subst hlast
    simp only [Nat.sub_self, List.getElem_cons_zero] at hroom
    rw [← hroom]
    exact hid

theorem Room.Numbered.getElem?_id {r : Room} (h : Room.Numbered rooms) (hr : r ∈ rooms) :
    rooms[r.id.toNat]? = some r := by
  obtain ⟨n, hn⟩ := List.mem_iff_getElem?.mp hr
  rw [h n r hn, Int.toNat_natCast]
  exact hn

end Numbers

/-! ## Plans -/

/-- Rooms are numbered by their places, have sides of at least `minRoom`, keep a border to the map
and a padding to each other, and corridors between their centers are a spanning tree of them. -/
structure WellPlanned (width height minRoom border padding : Int) (rooms : List Room)
    (corridors : List Corridor) : Prop where
  number : ∀ (n : Nat) (room : Room), rooms[n]? = some room → room.id = n
  sides : ∀ room ∈ rooms, minRoom ≤ room.w ∧ minRoom ≤ room.h
  border : ∀ room ∈ rooms, (border ≤ room.x ∧ room.right + border ≤ width) ∧
    border ≤ room.y ∧ room.bottom + border ≤ height
  apart : rooms.Pairwise fun a b => a.meets b.toRect padding = false
  between : ∀ c ∈ corridors, ∃ a ∈ rooms, ∃ b ∈ rooms, ∃ bend, c = Corridor.between bend a b
  spans : Spans 0 rooms.length corridors

section Plan

variable {width height minRoom border padding : Int} {rooms rooms' : List Room}
  {corridors : List Corridor} {s : Set Point}

theorem WellPlanned.mono {minRoom' border' padding' : Int}
    (h : WellPlanned width height minRoom border padding rooms corridors)
    (hroom : minRoom' ≤ minRoom) (hborder : border' ≤ border) (hpadding : padding' ≤ padding) :
    WellPlanned width height minRoom' border' padding' rooms corridors where
  number := h.number
  sides := fun room hmem => by
    have := h.sides room hmem
    omega
  border := fun room hmem => by
    have := h.border room hmem
    omega
  apart := h.apart.imp (Rect.meets_mono hpadding)
  between := h.between
  spans := h.spans

theorem WellPlanned.rooms_ne_nil
    (h : WellPlanned width height minRoom border padding rooms corridors) : rooms ≠ [] := by
  rintro rfl
  have hcount := h.spans.count
  rw [List.length_nil] at hcount
  omega

theorem Room.meets_eq_false_of_ne
    (h : rooms.Pairwise fun a b => a.meets b.toRect padding = false) {i j : Nat} {a b : Room}
    (ha : rooms[i]? = some a) (hb : rooms[j]? = some b) (hij : i ≠ j) :
    a.meets b.toRect padding = false := by
  have hpair := List.pairwise_iff_getElem.mp h
  obtain ⟨hi, rfl⟩ := List.getElem?_eq_some_iff.mp ha
  obtain ⟨hj, rfl⟩ := List.getElem?_eq_some_iff.mp hb
  cases Nat.lt_or_gt_of_ne hij with
  | inl hlt => exact hpair i j hi hj hlt
  | inr hgt =>
    rw [Rect.meets_comm]
    exact hpair j i hj hi hgt

/-- Rooms at different places of the list are apart. -/
theorem WellPlanned.apart_of_ne
    (h : WellPlanned width height minRoom border padding rooms corridors) {i j : Nat} {a b : Room}
    (ha : rooms[i]? = some a) (hb : rooms[j]? = some b) (hij : i ≠ j) :
    a.meets b.toRect padding = false :=
  Room.meets_eq_false_of_ne h.apart ha hb hij

/-- A corridor runs from the center of the room it names first to that of the room it names second. -/
theorem WellPlanned.path_between
    (h : WellPlanned width height minRoom border padding rooms corridors) {c : Corridor}
    (hc : c ∈ corridors) :
    ∃ a b, rooms[c.roomA.toNat]? = some a ∧ rooms[c.roomB.toNat]? = some b ∧
      ∃ bend, c.path = Bend.path bend a.center b.center := by
  obtain ⟨a, ha, b, hb, bend, rfl⟩ := h.between c hc
  have hnumber : Room.Numbered rooms := h.number
  exact ⟨a, b, hnumber.getElem?_id ha, hnumber.getElem?_id hb, bend, rfl⟩

/-! ## One piece -/

/-- If every corridor joins the points of its two ends, then corridors in a row do. -/
theorem Linked.joined {center : Int → Point} {i j : Int}
    (hs : ∀ c ∈ corridors, Joined s (center c.roomA) (center c.roomB)) (h : Linked corridors i j) :
    Joined s (center i) (center j) := by
  induction h with
  | rel a b hab =>
    obtain ⟨c, hc, rfl, rfl⟩ := hab
    exact hs c hc
  | refl a => exact .refl
  | symm a b _ ih => exact ih.symm
  | trans a b c _ _ ih ih' => exact ih.trans ih'

theorem WellPlanned.joined_centers
    (h : WellPlanned width height minRoom border padding rooms corridors)
    (hs : ∀ c ∈ corridors, ∀ p ∈ c.path, p ∈ s) {a b : Room} (ha : a ∈ rooms) (hb : b ∈ rooms) :
    Joined s a.center b.center := by
  -- The point of a number is the center of the room with that number.
  let center (i : Int) : Point := ((rooms[i.toNat]?).map fun r => r.center).getD default
  have hcenter : ∀ r ∈ rooms, center r.id = r.center ∧ 0 ≤ r.id ∧ r.id < 0 + rooms.length := by
    intro r hr
    obtain ⟨n, hn⟩ := List.mem_iff_getElem?.mp hr
    have hlt := (List.getElem?_eq_some_iff.mp hn).1
    have hid := h.number n r hn
    refine ⟨?_, by omega, by omega⟩
    simp only [center, hid, Int.toNat_natCast, hn, Option.map_some, Option.getD_some]
  obtain ⟨hca, ha₁, ha₂⟩ := hcenter a ha
  obtain ⟨hcb, hb₁, hb₂⟩ := hcenter b hb
  rw [← hca, ← hcb]
  rw [zero_add] at ha₂ hb₂
  refine (h.spans.linked a.id b.id ha₁ ha₂ hb₁ hb₂).joined fun c hc => ?_
  obtain ⟨r, hr, t, ht, bend, rfl⟩ := h.between c hc
  simp only [Corridor.between, (hcenter r hr).1, (hcenter t ht).1]
  exact bend.joined_ends (hs _ hc)

/-- Every point of a plan is joined to the center of a room. -/
theorem WellPlanned.joined_center
    (h : WellPlanned width height minRoom border padding rooms corridors) (hroom : 1 ≤ minRoom)
    {p : Point} (hp : p ∈ Grid.footprint rooms corridors) :
    ∃ a ∈ rooms, Joined (Grid.footprint rooms corridors) a.center p := by
  rcases hp with ⟨a, ha, hp⟩ | ⟨c, hc, hp⟩
  · have hsides := h.sides a ha
    refine ⟨a, ha, Rect.joined (fun q hq => .inl ⟨a, ha, hq⟩) ?_ hp⟩
    exact Rect.contains_center (by omega) (by omega)
  · obtain ⟨a, ha, b, _, bend, rfl⟩ := h.between c hc
    exact ⟨a, ha, bend.joined_path (fun q hq => .inr ⟨_, hc, hq⟩) p hp⟩

theorem WellPlanned.inOnePiece
    (h : WellPlanned width height minRoom border padding rooms corridors) (hroom : 1 ≤ minRoom) :
    InOnePiece (Grid.footprint rooms corridors) := by
  intro p hp q hq
  obtain ⟨a, ha, hap⟩ := h.joined_center hroom hp
  obtain ⟨b, hb, hbq⟩ := h.joined_center hroom hq
  have hab : Joined (Grid.footprint rooms corridors) a.center b.center :=
    h.joined_centers (fun c hc r hr => Or.inr ⟨c, hc, hr⟩) ha hb
  exact hap.symm.trans (hab.trans hbq)

/-! ## The border -/

theorem WellPlanned.contains_in_border
    (h : WellPlanned width height minRoom border padding rooms corridors) {a : Room} (ha : a ∈ rooms)
    {p : Point} (hp : a.contains p = true) :
    (border ≤ p.x ∧ p.x + border < width) ∧ border ≤ p.y ∧ p.y + border < height := by
  have hborder := h.border a ha
  rw [Rect.contains_iff] at hp
  simp only [Rect.right, Rect.bottom] at hborder
  omega

/-- Nothing of a plan reaches into the border: a path stays between the centers of two rooms. -/
theorem WellPlanned.footprint_in_border
    (h : WellPlanned width height minRoom border padding rooms corridors) (hroom : 1 ≤ minRoom)
    {p : Point} (hp : p ∈ Grid.footprint rooms corridors) :
    (border ≤ p.x ∧ p.x + border < width) ∧ border ≤ p.y ∧ p.y + border < height := by
  have hcenter : ∀ a ∈ rooms, a.contains a.center = true := fun a ha => by
    have hsides := h.sides a ha
    exact Rect.contains_center (by omega) (by omega)
  rcases hp with ⟨a, ha, hp⟩ | ⟨c, hc, hp⟩
  · exact h.contains_in_border ha hp
  · obtain ⟨a, ha, b, hb, bend, rfl⟩ := h.between c hc
    have hbox := Bend.path_in_box hp
    have hfirst := h.contains_in_border ha (hcenter a ha)
    have hsecond := h.contains_in_border hb (hcenter b hb)
    omega

theorem WellPlanned.floor_ofPlan {m : Map} (hfull : m.grid.Full)
    (h : WellPlanned m.grid.width m.grid.height minRoom border padding rooms corridors)
    (hroom : 1 ≤ minRoom) (hborder : 0 ≤ border) :
    (m.ofPlan rooms corridors).grid.floor = Grid.footprint rooms corridors := by
  obtain ⟨_, _, _, hfloor⟩ := Grid.carvePlan_spec hfull.filled rooms corridors
  rw [Map.ofPlan, hfloor, Grid.floor_filled, Set.empty_union]
  ext p
  refine ⟨fun hp => hp.2, fun hp => ⟨?_, hp⟩⟩
  have hbound := h.footprint_in_border hroom hp
  rw [Grid.inBounds_iff]
  simp only [Grid.filled]
  omega

/-! ## What rooms hold -/

/-- The room without its role and what it holds. -/
def Room.bare (r : Room) : Room := Room.ofRect r.id r.toRect

theorem Room.bare_inj {a b : Room} : a.bare = b.bare ↔ a.id = b.id ∧ a.toRect = b.toRect := by
  simp [bare, ofRect, and_comm]

theorem exists_bare (h : rooms.map Room.bare = rooms'.map Room.bare) {a : Room} (ha : a ∈ rooms) :
    ∃ b ∈ rooms', a.id = b.id ∧ a.toRect = b.toRect := by
  have hmem : a.bare ∈ rooms'.map Room.bare := h ▸ List.mem_map_of_mem ha
  obtain ⟨b, hb, hbare⟩ := List.mem_map.mp hmem
  exact ⟨b, hb, Room.bare_inj.mp hbare.symm⟩

theorem length_bare (h : rooms.map Room.bare = rooms'.map Room.bare) :
    rooms.length = rooms'.length := by
  rw [← List.length_map Room.bare, h, List.length_map]

theorem Room.Numbered.of_bare (h : Room.Numbered rooms')
    (hbare : rooms.map Room.bare = rooms'.map Room.bare) : Room.Numbered rooms := by
  intro n r hr
  have hn : (rooms.map Room.bare)[n]? = some r.bare := by rw [List.getElem?_map, hr]; rfl
  rw [hbare, List.getElem?_map, Option.map_eq_some_iff] at hn
  obtain ⟨t, ht, hbare⟩ := hn
  exact (Room.bare_inj.mp hbare).1.symm.trans (h n t ht)

theorem footprint_bare (h : rooms'.map Room.bare = rooms.map Room.bare) :
    Grid.footprint rooms' corridors = Grid.footprint rooms corridors := by
  have hrooms : ∀ {rooms rooms' : List Room}, rooms.map Room.bare = rooms'.map Room.bare →
      ∀ p : Point, (∃ r ∈ rooms, r.contains p = true) → ∃ r ∈ rooms', r.contains p = true := by
    rintro rooms rooms' h p ⟨a, ha, hp⟩
    obtain ⟨b, hb, _, hrect⟩ := exists_bare h ha
    exact ⟨b, hb, hrect ▸ hp⟩
  ext p
  exact or_congr ⟨hrooms h p, hrooms h.symm p⟩ Iff.rfl

end Plan

end Dungeon
