import Dungeon.Proofs.Generate

/-!
# The rooms of a generation

Whatever the layout, no two rooms of a generated map have a point in common. Planned rooms keep a
padding, and chambers keep off what earlier chambers claim. So rooms have different centers. Their
roles go by their places: there is one entrance, and one lair.

Results:
1. `Layout.cavern_apart`: the rooms of a cave have no point in common.
2. `Map.populate_outlines`, `Map.populate_roles`: populating gives each room the role of its place, and
   of the rest it changes only what rooms hold.
3. `Room.RolesByPlace.many`, `Room.RolesByPlace.alone`: which rooms have which roles.
4. `Handover.generate_apart`, `Handover.generate_centers`, `Handover.generate_roles`: so it is in
   generated maps.
-/

namespace Dungeon

/-! ## Chambers as rooms -/

/-- The rectangles of the rooms of a map. -/
def Map.rects (m : Map) : List Rect := m.rooms.map Room.toRect

theorem toRect_numbered (start : Nat) (rects : List Rect) :
    (numbered start rects).map Room.toRect = rects := by
  calc (numbered start rects).map Room.toRect
      = (rects.zipIdx start).map Prod.fst := by rw [numbered, List.map_map]; rfl
    _ = rects := List.zipIdx_map_fst start rects

/-- If a cave is found, its rooms are chambers, and these have no point in common. -/
theorem Layout.cavern_apart {p : CavernParams} (hpadding : 0 ≤ p.roomPadding) (m : Map)
    (report : Report) : (Layout.cavern p m report).Ensures fun laid =>
      laid.fault = none → laid.map.rects.Pairwise Rect.Apart := by
  intro s
  rw [Layout.cavern_run]
  cases Cavern.search (Cavern.attempt p m.grid.width m.grid.height s)
      (p.leastArea m.grid.width m.grid.height) (p.maxRetries + 1).toNat 0 none 0 with
  | found a =>
    intro _
    rw [Cavern.conclude_found, Cavern.Attempt.taken_map, Map.rects, Map.foldl_addRoom]
    show ((([] : List Room) ++ numbered 0 (Chambers.ofGrid a.grid p)).map Room.toRect).Pairwise _
    rw [List.nil_append, toRect_numbered]
    exact Chambers.ofGrid_apart a.grid hpadding
  | exhausted last best =>
    intro hfault
    cases last with
    | none => cases hfault
    | some a =>
      rw [Cavern.conclude_exhausted] at hfault
      cases hfault

/-! ## Outlines and roles -/

/-- The room without what it holds. -/
def Room.outline (r : Room) : Room := { r with monsters := 0, treasures := 0, traps := 0 }

theorem Room.furnish_outline (a : Template) (r : Room) :
    (r.furnish a).Ensures fun s => s.outline = r.outline := by
  unfold furnish
  split
  · exact (Draw.Ensures.trivial _).bind fun monsters _ => .pure rfl
  · split
    · exact .pure rfl
    · refine (Draw.Ensures.trivial _).bind fun monsters _ => ?_
      refine (Draw.Ensures.trivial _).bind fun treasures _ => ?_
      exact (Draw.Ensures.trivial _).bind fun traps _ => .pure rfl

/-- The outlines of the rooms after populating are fixed before, whatever is drawn. -/
theorem Map.populate_outlines (m : Map) (a : Template) :
    (m.populate a).Ensures fun populated => ∃ rooms, populated = { m with rooms } ∧
      rooms.map Room.outline =
        m.rooms.zipIdx.map fun (r, place) => r.emptied place m.rooms.length := by
  let emptied := m.rooms.zipIdx.map fun (r, place) => r.emptied place m.rooms.length
  have hfurnish : (emptied.mapM (Room.furnish a)).Ensures
      (List.Forall₂ (fun r s => s.outline = r.outline) emptied) :=
    .mapM fun r _ => Room.furnish_outline a r
  refine hfurnish.bind fun rooms hrooms => .pure ⟨rooms, rfl, ?_⟩
  calc rooms.map Room.outline
      = emptied.map Room.outline := by
        rw [← List.forall₂_eq_eq_eq, List.forall₂_map_left_iff, List.forall₂_map_right_iff]
        exact hrooms.flip
    _ = emptied := by
        rw [List.map_map]
        rfl

/-- The roles of the rooms go by their places. -/
def Room.RolesByPlace (rooms : List Room) : Prop :=
  ∀ i r, rooms[i]? = some r → r.kind = Room.kindAt i rooms.length

/-- The roles go by the places of the rooms, whatever is drawn. -/
theorem Map.populate_roles (m : Map) (a : Template) :
    (m.populate a).Ensures fun populated => Room.RolesByPlace populated.rooms := by
  refine (m.populate_outlines a).mono fun populated hpopulated => ?_
  obtain ⟨rooms, rfl, houtlines⟩ := hpopulated
  have hlength := congrArg List.length houtlines
  rw [List.length_map, List.length_map, List.length_zipIdx] at hlength
  intro i r hr
  have houtline : (rooms.map Room.outline)[i]? = some r.outline := by
    rw [List.getElem?_map, hr, Option.map_some]
  rw [houtlines, List.getElem?_map, List.getElem?_zipIdx, Option.map_map,
    Option.map_eq_some_iff] at houtline
  obtain ⟨t, _, ht⟩ := houtline
  have hkind : Room.kindAt (0 + i) m.rooms.length = r.kind := congrArg Room.kind ht
  rw [hlength, ← hkind, Nat.zero_add]

theorem Room.kindAt_first (n : Nat) : kindAt 0 (n + 2) = .spawn := by
  rw [kindAt, if_neg (by omega), if_pos rfl]

theorem Room.kindAt_inner {i n : Nat} (h : i < n) : kindAt (i + 1) (n + 2) = .normal := by
  rw [kindAt, if_neg (by omega), if_neg (by omega), if_neg (by omega)]

theorem Room.kindAt_last (n : Nat) : kindAt (n + 1) (n + 2) = .boss := by
  rw [kindAt, if_neg (by omega), if_neg (by omega), if_pos rfl]

namespace Room.RolesByPlace

/-- Of two rooms or more the first is the entrance and the last is the lair. -/
theorem many {rooms : List Room} (h : RolesByPlace rooms) (hlength : 2 ≤ rooms.length) :
    ∃ first middle last, rooms = first :: (middle ++ [last]) ∧ first.kind = .spawn ∧
      (∀ r ∈ middle, r.kind = .normal) ∧ last.kind = .boss := by
  cases rooms with
  | nil => cases hlength
  | cons first rest =>
    rcases List.eq_nil_or_concat' rest with rfl | ⟨middle, last, rfl⟩
    · cases hlength with | step hlength => cases hlength
    · have hcount : (first :: (middle ++ [last])).length = middle.length + 2 := by
        rw [List.length_cons, List.length_append, List.length_singleton]
      have hkind : ∀ i r, (first :: (middle ++ [last]))[i]? = some r →
          r.kind = kindAt i (middle.length + 2) := by
        rw [← hcount]
        exact h
      refine ⟨first, middle, last, rfl, ?_, fun r hr => ?_, ?_⟩
      · exact (hkind 0 first rfl).trans (kindAt_first _)
      · obtain ⟨i, hi, rfl⟩ := List.mem_iff_getElem.mp hr
        refine (hkind (i + 1) _ ?_).trans (kindAt_inner hi)
        rw [List.getElem?_cons_succ, List.getElem?_append_left hi, List.getElem?_eq_getElem hi]
      · refine (hkind (middle.length + 1) _ ?_).trans (kindAt_last _)
        rw [List.getElem?_cons_succ, List.getElem?_concat_length]

/-- A room alone is entrance and lair. -/
theorem alone {only : Room} (h : RolesByPlace [only]) : only.kind = .spawnBoss := h 0 only rfl

end Room.RolesByPlace

/-! ## Generated maps -/

namespace Handover

variable {h : Handover} {seed : UInt32} {a : Template}

theorem generate_wellLaid (hok : (h.generate seed a).1 = true) :
    WellLaid a (h.generate seed a).2.map := by
  have hends := generate_ends seed a
  generalize hgen : Dungeon.generate seed a = outcome at hends
  cases hends with
  | badTemplate | tooFewRooms | noCave =>
    rw [generate_of_error h hgen] at hok
    cases hok
  | made accepted well stocked recorded failure warned =>
    rw [generate_of_ok h hgen]
    exact well

theorem generate_roles (hok : (h.generate seed a).1 = true) :
    Room.RolesByPlace (h.generate seed a).2.map.rooms := by
  rw [map_generate hok]
  exact Map.populate_roles _ a _

/-- No two rooms of a generated map have a point in common. -/
theorem generate_apart (hok : (h.generate seed a).1 = true) :
    (h.generate seed a).2.map.rects.Pairwise Rect.Apart := by
  obtain ⟨haccepted, hfault⟩ := generate_ok_iff.mp hok
  have hplanned (hne : a.algorithm ≠ .cavern) (hpadding : 0 ≤ a.padding) :
      (h.generate seed a).2.map.rects.Pairwise Rect.Apart :=
    List.pairwise_map.mpr
      (((generate_wellLaid hok).plan hne).1.imp fun hmeets => .of_meets hpadding hmeets)
  rcases Template.algorithm_accepted haccepted with halgorithm | halgorithm | halgorithm
  · refine hplanned (by rw [halgorithm]; decide) ?_
    rw [Template.padding, halgorithm]
    exact (Template.partition_accepted haccepted halgorithm).padding
  · -- The rooms of a cave are as the layout leaves them, but for what they hold.
    have hpadding := Template.roomPadding_accepted haccepted halgorithm
    have hlaid := Layout.cavern_apart hpadding (Map.blank seed a) {} (.ofSeed seed)
    rw [← Template.laid_cavern halgorithm] at hlaid
    obtain ⟨rooms, hpopulated, hbare, _⟩ :=
      (a.laid seed).1.map.populate_ensures a (a.laid seed).2
    rw [map_generate hok, hpopulated]
    have hrects : rooms.map Room.toRect = (a.laid seed).1.map.rects := by
      have hmap := congrArg (List.map Room.toRect) hbare
      rw [List.map_map, List.map_map] at hmap
      exact hmap
    show (rooms.map Room.toRect).Pairwise Rect.Apart
    rw [hrects]
    exact hlaid hfault
  · refine hplanned (by rw [halgorithm]; decide) ?_
    rw [Template.padding, halgorithm]
    exact (Template.scatter_accepted haccepted halgorithm).padding

/-- No two rooms of a generated map have one center. -/
theorem generate_centers (hok : (h.generate seed a).1 = true) :
    ((h.generate seed a).2.map.rooms.map fun r => r.center).Nodup := by
  refine List.pairwise_map.mpr ((List.pairwise_map.mp (generate_apart hok)).imp_of_mem ?_)
  intro r t hr ht hapart
  obtain ⟨hw, hh⟩ := (generate_wellLaid hok).sides r hr
  obtain ⟨hw', hh'⟩ := (generate_wellLaid hok).sides t ht
  exact hapart.center_ne (Rect.contains_center hw hh) (Rect.contains_center hw' hh')

end Handover
end Dungeon
