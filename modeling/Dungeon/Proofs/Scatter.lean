import Dungeon.Layout.Scatter
import Dungeon.Proofs.Plan
import Dungeon.Proofs.Template

/-!
# Scattered rooms

What is placed is a well-made plan after every attempt, once there has been one: the first candidate
is never blocked, and a later one is placed only if it keeps its distance.

Results:
1. `Scatter.Placement.tryOnce_ensures`: an attempt leaves a well-made plan.
2. `Scatter.draw_ensures`: so do all attempts together, and they count themselves.
3. `Layout.scatter_ensures`: the layout of accepted parameters never fails, and it warns when rooms
   are missing.
-/

namespace Dungeon

/-! ## Plans that grow -/

section Grow

variable {width height minRoom border padding : Int} {rooms : List Room}
  {corridors : List Corridor} {r : Rect}

/-- The rectangle could be that of a room of the plan, were it alone. -/
structure FitsMap (width height minRoom border : Int) (r : Rect) : Prop where
  sides : minRoom ≤ r.w ∧ minRoom ≤ r.h
  columns : border ≤ r.x ∧ r.right + border ≤ width
  rows : border ≤ r.y ∧ r.bottom + border ≤ height

theorem WellPlanned.single (h : FitsMap width height minRoom border r) :
    WellPlanned width height minRoom border padding [Room.ofRect 0 r] [] where
  number := fun n room hroom => by
    obtain ⟨hn, hroom⟩ := List.getElem?_eq_some_iff.mp hroom
    rw [List.length_singleton] at hn
    have hzero : n = 0 := by omega
    subst hzero
    rw [← hroom]
    rfl
  sides := fun room hroom => by
    rw [List.mem_singleton] at hroom
    subst hroom
    exact h.sides
  border := fun room hroom => by
    rw [List.mem_singleton] at hroom
    subst hroom
    exact ⟨h.columns, h.rows⟩
  apart := List.pairwise_singleton _ _
  between := fun c hc => by cases hc
  spans := Spans.single 0

/-- A rectangle away from all rooms may become the next room, joined to any room before it. -/
theorem WellPlanned.snoc {previous : Room} {bend : Bend}
    (h : WellPlanned width height minRoom border padding rooms corridors)
    (hr : FitsMap width height minRoom border r)
    (hfree : ∀ a ∈ rooms, r.meets a.toRect padding = false) (hprevious : previous ∈ rooms) :
    WellPlanned width height minRoom border padding (rooms ++ [Room.ofRect rooms.length r])
      (corridors ++ [Corridor.between bend previous (Room.ofRect rooms.length r)]) where
  number := Room.Numbered.concat h.number rfl
  sides := fun room hroom => by
    cases List.mem_append.mp hroom with
    | inl hroom => exact h.sides room hroom
    | inr hroom =>
      rw [List.mem_singleton] at hroom
      subst hroom
      exact hr.sides
  border := fun room hroom => by
    cases List.mem_append.mp hroom with
    | inl hroom => exact h.border room hroom
    | inr hroom =>
      rw [List.mem_singleton] at hroom
      subst hroom
      exact ⟨hr.columns, hr.rows⟩
  apart := by
    refine List.pairwise_append.mpr ⟨h.apart, List.pairwise_singleton _ _, fun a ha b hb => ?_⟩
    rw [List.mem_singleton] at hb
    subst hb
    rw [Rect.meets_comm]
    exact hfree a ha
  between := fun c hc => by
    cases List.mem_append.mp hc with
    | inl hc =>
      obtain ⟨a, ha, b, hb, bend, rfl⟩ := h.between c hc
      exact ⟨a, List.mem_append_left _ ha, b, List.mem_append_left _ hb, bend, rfl⟩
    | inr hc =>
      rw [List.mem_singleton] at hc
      exact ⟨_, List.mem_append_left _ hprevious, _, List.mem_append_right _ List.mem_cons_self,
        bend, hc⟩
  spans := by
    obtain ⟨n, hn⟩ := List.mem_iff_getElem?.mp hprevious
    have hid := h.number n previous hn
    have hlt := (List.getElem?_eq_some_iff.mp hn).1
    have hjoin := h.spans.join (Spans.single rooms.length)
      (c := Corridor.between bend previous (Room.ofRect rooms.length r))
      (by simp only [Corridor.between]; omega) (by simp only [Corridor.between, Room.ofRect]; omega)
    rw [List.append_nil] at hjoin
    rw [List.length_append, List.length_singleton, Nat.cast_add, Nat.cast_one]
    exact hjoin

end Grow

namespace Scatter

variable {p : ScatterParams} {width height : Int}

theorem drawCandidate_ensures (h : p.Sound width height) :
    (drawCandidate p width height).Ensures (FitsMap width height p.minRoom 1) := by
  have hgreatest := h.greatestSide
  have hwidth := h.width
  have hheight := h.height
  unfold drawCandidate
  refine (Draw.between_ensures (by omega)).bind fun w hw => ?_
  refine (Draw.between_ensures (by omega)).bind fun h hh => ?_
  refine (Draw.between_ensures (by omega)).bind fun x hx => ?_
  refine (Draw.between_ensures (by omega)).bind fun y hy => ?_
  refine .pure ⟨⟨hw.1, hh.1⟩, ⟨hx.1, ?_⟩, hy.1, ?_⟩
  · simp only [Rect.right]
    omega
  · simp only [Rect.bottom]
    omega

namespace Placement

variable {s : Placement}

/-- What is placed is a well-made plan. -/
def Sound (p : ScatterParams) (width height : Int) (s : Placement) : Prop :=
  WellPlanned width height p.minRoom 1 p.padding s.rooms s.corridors

/-- Nothing is placed. -/
def Bare (s : Placement) : Prop := s.rooms = [] ∧ s.corridors = []

theorem place_ensures {candidate : Rect} (hs : s.Bare ∨ s.Sound p width height)
    (hfits : FitsMap width height p.minRoom 1 candidate)
    (hfree : s.blocks p.padding candidate = false) :
    (s.place candidate).Ensures fun t => t.Sound p width height ∧ t.attempts = s.attempts := by
  unfold place
  cases hlast : s.rooms.getLast? with
  | none =>
    rw [List.getLast?_eq_none_iff] at hlast
    rcases hs with ⟨_, hcorridors⟩ | hs
    · refine .pure ⟨?_, rfl⟩
      unfold Sound
      simp only [hlast, hcorridors, List.length_nil, List.nil_append]
      exact .single hfits
    · exact absurd hlast hs.rooms_ne_nil
  | some previous =>
    have hmem := List.mem_of_getLast? hlast
    rcases hs with ⟨hrooms, _⟩ | hs
    · rw [hrooms] at hmem
      cases hmem
    · refine (Corridor.draw_ensures _ _).bind fun c hc => ?_
      obtain ⟨bend, rfl⟩ := hc
      refine .pure ⟨hs.snoc hfits (fun a ha => ?_) hmem, rfl⟩
      exact (Bool.not_eq_true _).mp fun hmeets => by
        rw [blocks, List.any_eq_false] at hfree
        exact hfree a ha hmeets

theorem tryOnce_ensures (h : p.Sound width height) (hs : s.Bare ∨ s.Sound p width height) :
    (s.tryOnce p width height).Ensures fun t =>
      t.Sound p width height ∧ t.attempts = s.attempts + 1 := by
  unfold tryOnce
  refine (drawCandidate_ensures h).bind fun candidate hfits => ?_
  have hs' : { s with attempts := s.attempts + 1 }.Bare ∨
      { s with attempts := s.attempts + 1 }.Sound p width height := hs
  dsimp only
  split
  · next hblocked =>
    -- Something is in the way, so this is not the first attempt.
    rcases hs with ⟨hrooms, _⟩ | hs
    · rw [blocks, hrooms, List.any_nil] at hblocked
      cases hblocked
    · exact .pure ⟨hs, rfl⟩
  · next hfree => exact place_ensures hs' hfits ((Bool.not_eq_true _).mp hfree)

end Placement

/-- With at least one attempt something is placed, and the plan of it is well made. Attempts end
early only when the target is reached. -/
theorem draw_ensures (h : p.Sound width height) (n : Nat) {s : Placement}
    (hs : 0 < n ∧ s.Bare ∨ s.Sound p width height) :
    (draw p width height n s).Ensures fun t => t.Sound p width height ∧
      (p.targetRooms ≤ t.rooms.length ∨ t.attempts = s.attempts + n) := by
  induction n generalizing s with
  | zero =>
    rcases hs with ⟨hn, _⟩ | hs
    · cases hn
    · exact .pure ⟨hs, .inr rfl⟩
  | succ n ih =>
    unfold draw
    split
    · next htarget =>
      rcases hs with ⟨_, hrooms, _⟩ | hs
      · -- Nothing is placed yet, and at least one room is asked for.
        have hone := h.target
        rw [hrooms] at htarget
        simp only [List.length_nil] at htarget
        omega
      · exact .pure ⟨hs, .inl htarget⟩
    · refine (Placement.tryOnce_ensures h (hs.imp_left And.right)).bind fun t ht => ?_
      refine (ih (.inr ht.1)).mono fun u hu => ⟨hu.1, hu.2.imp_right fun hattempts => ?_⟩
      rw [hattempts, ht.2]
      omega

end Scatter

/-- The layout of accepted parameters never fails. If rooms are missing, the attempts are used up,
and there is one warning, which says so. -/
theorem Layout.scatter_ensures {p : ScatterParams} {m : Map} (report : Report)
    (h : p.Sound m.grid.width m.grid.height) :
    (Layout.scatter p m report).Ensures fun laid => ∃ rooms corridors,
      WellPlanned m.grid.width m.grid.height p.minRoom 1 p.padding rooms corridors ∧
        laid = { map := m.ofPlan rooms corridors, report := { report with
          roomsRequested := p.targetRooms
          warnings := report.warnings ++ if (rooms.length : Int) < p.targetRooms then
            [.fewRooms rooms.length p.targetRooms (Scatter.budget p)] else [] } } := by
  have hbudget : 0 < Scatter.budget p := by
    have hpos := Int.mul_pos (Int.lt_of_lt_of_le one_pos h.target)
      (Int.lt_of_lt_of_le one_pos h.attempts)
    unfold Scatter.budget
    omega
  unfold Layout.scatter
  refine (Scatter.draw_ensures h _ (.inl ⟨hbudget, rfl, rfl⟩)).bind fun s hs => .pure ?_
  refine ⟨s.rooms, s.corridors, hs.1, ?_⟩
  unfold Scatter.shortfall
  split
  · next hfew =>
    have hattempts : s.attempts = Scatter.budget p := by
      rw [hs.2.resolve_left (by omega), Nat.zero_add]
    rw [hattempts]
  · rfl

end Dungeon
