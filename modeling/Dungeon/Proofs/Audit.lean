import Dungeon.Audit
import Dungeon.Proofs.Search

/-!
# Audits

An audit finds nothing wrong with a map exactly when the map is sound. Each part of an audit is
compared with what it is meant to check, and `Map.Sound` puts the parts together.

Results:
1. `brokenStep?_eq_none`, `firstMeeting?_eq_none`: the two searches for a first offence.
2. `Map.floorIsCovered_iff`, `Map.roomsConnected_iff`: how rooms and floor lie.
3. `Map.audit?_eq_none`: an audit finds nothing if and only if the map is sound.
4. `Map.check_iff_sound`: what a caller who hands over a message is told.
-/

namespace Dungeon

/-! ## First offences -/

theorem brokenStep?_eq_none {n : Nat} {path : List Point} :
    brokenStep? n path = none ↔ Walks path := by
  unfold Walks
  induction path generalizing n with
  | nil => exact iff_of_true rfl .nil
  | cons p rest ih =>
    cases rest with
    | nil => exact iff_of_true rfl (.singleton p)
    | cons q rest =>
      rw [brokenStep?, List.isChain_cons_cons]
      split
      · next hstep => rw [ih, and_iff_right hstep]
      · next hstep => exact iff_of_false (Option.some_ne_none n) fun h => hstep h.1

theorem firstMeeting?_eq_none {padding : Int} {n : Nat} {rooms : List Room} :
    firstMeeting? padding n rooms = none ↔
      rooms.Pairwise fun a b => a.meets b.toRect padding = false := by
  induction rooms generalizing n with
  | nil => exact iff_of_true rfl .nil
  | cons r rest ih =>
    rw [firstMeeting?, List.pairwise_cons]
    cases hfind : rest.findIdx? fun other => r.meets other.toRect padding with
    | none =>
      rw [List.findIdx?_eq_none_iff] at hfind
      exact ih.trans (and_iff_right hfind).symm
    | some k =>
      refine iff_of_false (Option.some_ne_none _) fun h => ?_
      obtain ⟨hk, hmeets, _⟩ := List.findIdx?_eq_some_iff_getElem.mp hfind
      rw [h.1 _ (List.getElem_mem hk)] at hmeets
      cases hmeets

/-! ## Messages -/

theorem Text.lit_ne_nil {s : String} (h : s ≠ "") : lit s ≠ [] := by
  intro hnil
  have hsize : s.utf8ByteSize = 0 := by
    have hlength := congrArg List.length hnil
    simpa [lit] using hlength
  exact h (by simpa using hsize)

theorem Finding.message_ne_nil (finding : Finding) : finding.message ≠ [] := by
  cases finding <;> simp [message, Text.lit_ne_nil]

namespace Map

variable {m : Map} {padding : Int}

/-! ## Rooms and floor -/

theorem floorIsCovered_iff :
    m.floorIsCovered = true ↔ m.grid.floor ⊆ Grid.footprint m.rooms m.corridors := by
  have hfull : (Grid.walls m.grid.width m.grid.height).Full := by
    unfold Grid.Full
    rw [Grid.size_tiles_walls]
    rfl
  obtain ⟨_, _, _, hcover⟩ := Grid.carvePlan_spec hfull m.rooms m.corridors
  rw [Grid.floor_walls, Set.empty_union] at hcover
  -- The plan is carved into wall, so the floor of the cover is what it covers of the map.
  have hcovered : ∀ p, m.grid.inBounds p = true →
      (((Grid.walls m.grid.width m.grid.height).carvePlan m.rooms m.corridors).isFloor p = true ↔
        p ∈ Grid.footprint m.rooms m.corridors) := by
    intro p hp
    rw [← Grid.mem_floor, hcover]
    exact and_iff_right hp
  rw [floorIsCovered, List.all_eq_true]
  constructor
  · intro h p hp
    have hin := Grid.inBounds_of_mem_floor hp
    have hpoint := h p (Grid.mem_points.mpr hin)
    rw [Bool.or_eq_true, Bool.not_eq_true'] at hpoint
    rw [← hcovered p hin]
    refine hpoint.resolve_left fun hwall => ?_
    rw [Grid.mem_floor, hwall] at hp
    cases hp
  · intro h p hp
    rw [Bool.or_eq_true, Bool.not_eq_true']
    cases hfloor : m.grid.isFloor p with
    | false => exact .inl rfl
    | true => exact .inr ((hcovered p (Grid.mem_points.mp hp)).mpr (h hfloor))

theorem roomsConnected_iff :
    m.roomsConnected = true ↔ ∃ first, m.rooms.head? = some first ∧
      ∀ r ∈ m.rooms, r.center ∈ region m.grid.floor first.center := by
  unfold roomsConnected
  split
  · next hrooms =>
    rw [hrooms]
    refine iff_of_false Bool.false_ne_true ?_
    rintro ⟨first, hfirst, _⟩
    cases hfirst
  · next first rest hrooms =>
    rw [Bool.and_eq_true, List.all_eq_true]
    have hmem : first ∈ m.rooms := hrooms ▸ List.mem_cons_self
    constructor
    · rintro ⟨_, hall⟩
      refine ⟨first, by rw [hrooms]; rfl, fun r hr => ?_⟩
      obtain ⟨hin, hmarked⟩ := Bool.and_eq_true_iff.mp (hall r hr)
      exact (Grid.mem_flood hin).mp hmarked
    · rintro ⟨head, hhead, hall⟩
      rw [hrooms, List.head?_cons, Option.some.injEq] at hhead
      subst hhead
      refine ⟨(hall first hmem).1, fun r hr => ?_⟩
      have hin := Grid.inBounds_of_mem_floor (region_subset _ _ (hall r hr))
      exact Bool.and_eq_true_iff.mpr ⟨hin, (Grid.mem_flood hin).mpr (hall r hr)⟩

/-! ## The whole audit -/

/-- The room has its place for a number, lies on the map and holds no negative counts. -/
structure SoundRoom (m : Map) (r : Room) (place : Nat) : Prop where
  number : r.id = place
  sides : 0 < r.w ∧ 0 < r.h
  inside : (0 ≤ r.x ∧ r.right ≤ m.grid.width) ∧ 0 ≤ r.y ∧ r.bottom ≤ m.grid.height
  counts : 0 ≤ r.monsters ∧ 0 ≤ r.treasures ∧ 0 ≤ r.traps

/-- What an audit checks. -/
structure Sound (m : Map) (padding : Int) : Prop where
  area : 0 < m.grid.width ∧ 0 < m.grid.height
  tiles : (m.grid.tiles.size : Int) = m.grid.width * m.grid.height
  someRoom : m.rooms ≠ []
  rooms : ∀ (n : Nat) (r : Room), m.rooms[n]? = some r → m.SoundRoom r n
  corridors : ∀ c ∈ m.corridors, Walks c.path
  plan : m.area.algorithm ≠ .cavern →
    (m.rooms.Pairwise fun a b => a.meets b.toRect padding = false) ∧
      m.grid.floor ⊆ Grid.footprint m.rooms m.corridors
  reach : ∃ first, m.rooms.head? = some first ∧
    ∀ r ∈ m.rooms, r.center ∈ region m.grid.floor first.center

theorem auditGrid_eq_none :
    m.auditGrid = none ↔ (0 < m.grid.width ∧ 0 < m.grid.height) ∧
      (m.grid.tiles.size : Int) = m.grid.width * m.grid.height ∧ m.rooms ≠ [] := by
  unfold auditGrid
  dsimp only
  split
  · next harea => exact iff_of_false (Option.some_ne_none _) fun h => by omega
  · next harea =>
    split
    · next hsize => exact iff_of_false (Option.some_ne_none _) fun h => hsize h.2.1
    · next hsize =>
      split
      · next hrooms => exact iff_of_false (Option.some_ne_none _) fun h => h.2.2 hrooms
      · next hrooms => exact iff_of_true rfl ⟨by omega, not_not.mp hsize, hrooms⟩

theorem auditRoom_eq_none {r : Room} {place : Nat} :
    m.auditRoom r place = none ↔ m.SoundRoom r place := by
  unfold auditRoom
  split
  · next hid => exact iff_of_false (Option.some_ne_none _) fun h => hid h.number
  · next hid =>
    split
    · next hplace =>
      refine iff_of_false (Option.some_ne_none _) fun h => ?_
      have hsides := h.sides
      have hinside := h.inside
      omega
    · next hplace =>
      split
      · next hcounts =>
        refine iff_of_false (Option.some_ne_none _) fun h => ?_
        have hnone := h.counts
        omega
      · next hcounts =>
        exact iff_of_true rfl ⟨not_not.mp hid, by omega, by omega, by omega⟩

theorem auditRooms_eq_none :
    (m.rooms.zipIdx.findSome? fun (r, place) => m.auditRoom r place) = none ↔
      ∀ (n : Nat) (r : Room), m.rooms[n]? = some r → m.SoundRoom r n := by
  rw [List.findSome?_eq_none_iff]
  constructor
  · intro h n r hr
    exact auditRoom_eq_none.mp (h (r, n) (List.mk_mem_zipIdx_iff_getElem?.mpr hr))
  · rintro h ⟨r, n⟩ hr
    exact auditRoom_eq_none.mpr (h n r (List.mk_mem_zipIdx_iff_getElem?.mp hr))

theorem auditCorridors_eq_none :
    m.corridors.findSome? auditCorridor = none ↔ ∀ c ∈ m.corridors, Walks c.path := by
  rw [List.findSome?_eq_none_iff]
  refine forall₂_congr fun c _ => ?_
  rw [auditCorridor, Option.map_eq_none_iff, brokenStep?_eq_none]

theorem auditPlan_eq_none :
    m.auditPlan padding = none ↔ (m.area.algorithm ≠ .cavern →
      (m.rooms.Pairwise fun a b => a.meets b.toRect padding = false) ∧
        m.grid.floor ⊆ Grid.footprint m.rooms m.corridors) := by
  unfold auditPlan
  split
  · next hcavern => exact iff_of_true rfl fun h => absurd hcavern h
  · next hcavern =>
    rw [forall_prop_of_true hcavern, ← firstMeeting?_eq_none (n := 0), ← floorIsCovered_iff]
    split
    · next hmeet =>
      rw [hmeet]
      exact iff_of_false (Option.some_ne_none _) fun h => Option.some_ne_none _ h.1
    · next hmeet =>
      rw [and_iff_right hmeet]
      split
      · next hcovered => exact iff_of_true rfl hcovered
      · next hcovered => exact iff_of_false (Option.some_ne_none _) hcovered

theorem auditReach_eq_none : m.auditReach = none ↔ m.roomsConnected = true := by
  unfold auditReach
  split
  · next h => exact iff_of_true rfl h
  · next h => exact iff_of_false (Option.some_ne_none _) h

/-- An audit finds nothing wrong with a map if and only if the map is sound. -/
theorem audit?_eq_none : m.audit? padding = none ↔ m.Sound padding := by
  rw [audit?, Option.orElse_eq_none, Option.orElse_eq_none, Option.orElse_eq_none,
    Option.orElse_eq_none, auditGrid_eq_none, auditRooms_eq_none, auditCorridors_eq_none,
    auditPlan_eq_none, auditReach_eq_none, roomsConnected_iff]
  constructor
  · rintro ⟨⟨harea, htiles, hsome⟩, hrooms, hcorridors, hplan, hreach⟩
    exact ⟨harea, htiles, hsome, hrooms, hcorridors, hplan, hreach⟩
  · rintro ⟨harea, htiles, hsome, hrooms, hcorridors, hplan, hreach⟩
    exact ⟨⟨harea, htiles, hsome⟩, hrooms, hcorridors, hplan, hreach⟩

/-! ## What a caller is told -/

theorem check_of_sound (h : m.Sound padding) (message : Text) :
    m.check padding message = (true, message) := by
  rw [check, audit?_eq_none.mpr h]

/-- A map that is not sound fails, with the message of what is found. -/
theorem check_of_not_sound (h : ¬ m.Sound padding) (message : Text) :
    ∃ finding, m.audit? padding = some finding ∧
      m.check padding message = (false, finding.message) := by
  cases hfinding : m.audit? padding with
  | none => exact absurd (audit?_eq_none.mp hfinding) h
  | some finding => exact ⟨finding, rfl, by rw [check, hfinding]⟩

/-- A map passes, and the message is left alone, if and only if the map is sound. It fails, with a
message that is not empty, if and only if it is not. -/
theorem check_iff_sound (m : Map) (padding : Int) (message : Text) :
    (m.check padding message = (true, message) ↔ m.Sound padding) ∧
      ((∃ text, text ≠ [] ∧ m.check padding message = (false, text)) ↔ ¬ m.Sound padding) := by
  by_cases hsound : m.Sound padding
  · rw [check_of_sound hsound]
    refine ⟨iff_of_true rfl hsound, iff_of_false ?_ (not_not_intro hsound)⟩
    rintro ⟨text, _, hfails⟩
    cases hfails
  · obtain ⟨finding, _, hfails⟩ := check_of_not_sound hsound message
    rw [hfails]
    refine ⟨iff_of_false (fun hpasses => by cases hpasses) hsound, iff_of_true ?_ hsound⟩
    exact ⟨finding.message, finding.message_ne_nil, rfl⟩

end Map
end Dungeon
