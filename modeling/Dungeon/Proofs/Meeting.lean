import Dungeon.Proofs.Geometry
import Dungeon.Room

/-!
# Rooms that meet

Rooms meet with a padding if the first one, grown by the padding, overlaps the second. Read point by
point, this says that the rooms have points at most the padding apart, moving diagonally too. Both
readings take the two axes one by one, and along an axis rooms are ranges of whole numbers.

Results:
1. `ranges_near_iff`, `ncard_numbersBetween_lt_iff`: two ranges that a padding does not keep apart.
2. `Rect.meets_iff_near`, `Rect.meets_iff_between`, `Rect.meets_zero_iff`: rectangles that meet, by
   their points and by the columns and rows between them.
3. `Room.anyMeet_iff`, `Room.anyMeet_perm`, `Room.anyMeet_mono`: lists with rooms that meet.
4. `Room.meeting_exact`: all of this together.
-/

namespace Dungeon

/-! ## Ranges -/

section Ranges

variable {lo hi lo' hi' padding : Int}

/-- Ranges meet with a padding if they have members at most the padding apart. -/
theorem ranges_near_iff (h : lo < hi) (h' : lo' < hi') (hpadding : 0 ≤ padding) :
    lo - padding < hi' ∧ lo' < hi + padding ↔
      ∃ x x', (lo ≤ x ∧ x < hi) ∧ (lo' ≤ x' ∧ x' < hi') ∧ ((x - x').natAbs : Int) ≤ padding := by
  constructor
  · rintro ⟨hleft, hright⟩
    -- The nearest members: the two ends that face each other, or any common one.
    rcases lt_or_ge lo' hi with hlt | hge
    · rcases lt_or_ge lo hi' with hlt' | hge'
      · exact ⟨max lo lo', max lo lo', by omega, by omega, by omega⟩
      · exact ⟨lo, hi' - 1, by omega, by omega, by omega⟩
    · exact ⟨hi - 1, lo', by omega, by omega, by omega⟩
  · rintro ⟨x, x', hx, hx', hnear⟩
    omega

/-- The whole numbers that lie between two ranges. -/
def numbersBetween (lo hi lo' hi' : Int) : Set Int := {x | hi ≤ x ∧ x < lo' ∨ hi' ≤ x ∧ x < lo}

theorem ncard_numbersBetween (h : lo < hi) :
    (numbersBetween lo hi lo' hi').ncard = (lo' - hi).toNat + (lo - hi').toNat := by
  have hset : numbersBetween lo hi lo' hi' =
      (Finset.Ico hi lo' ∪ Finset.Ico hi' lo : Finset Int) := by
    ext x
    rw [Finset.mem_coe, Finset.mem_union, Finset.mem_Ico, Finset.mem_Ico]
    rfl
  have hdisjoint : Disjoint (Finset.Ico hi lo') (Finset.Ico hi' lo) := by
    rw [Finset.disjoint_left]
    intro x hx hx'
    rw [Finset.mem_Ico] at hx hx'
    omega
  rw [hset, Set.ncard_coe_finset, Finset.card_union_of_disjoint hdisjoint, Int.card_Ico,
    Int.card_Ico]

/-- Ranges meet with a padding of one or more if fewer numbers than that lie between them. -/
theorem ncard_numbersBetween_lt_iff (h : lo < hi) (h' : lo' < hi') (hpadding : 0 < padding) :
    ((numbersBetween lo hi lo' hi').ncard : Int) < padding ↔
      lo - padding < hi' ∧ lo' < hi + padding := by
  rw [ncard_numbersBetween h]
  omega

end Ranges

/-! ## Rectangles -/

namespace Rect

variable {r s : Rect} {padding : Int}

theorem meets_iff : r.meets s padding = true ↔
    (r.x - padding < s.x + s.w ∧ s.x < r.x + r.w + padding) ∧
      (r.y - padding < s.y + s.h ∧ s.y < r.y + r.h + padding) := by
  rw [meets, decide_eq_true_eq, and_assoc]
  rfl

/-- The columns that lie between two rectangles. -/
def columnsBetween (r s : Rect) : Set Int := numbersBetween r.x r.right s.x s.right

/-- The rows that lie between two rectangles. -/
def rowsBetween (r s : Rect) : Set Int := numbersBetween r.y r.bottom s.y s.bottom

section Sides

variable (hrw : 0 < r.w) (hrh : 0 < r.h) (hsw : 0 < s.w) (hsh : 0 < s.h)

include hrw hrh hsw hsh

theorem meets_iff_near (hpadding : 0 ≤ padding) : r.meets s padding = true ↔
    ∃ p q, r.contains p = true ∧ s.contains q = true ∧ (p.chebyshev q : Int) ≤ padding := by
  rw [meets_iff, ranges_near_iff (by omega) (by omega) hpadding,
    ranges_near_iff (by omega) (by omega) hpadding]
  simp only [contains_iff, Point.chebyshev, Nat.cast_max, max_le_iff]
  constructor
  · rintro ⟨⟨x, x', hx, hx', hnearx⟩, y, y', hy, hy', hneary⟩
    exact ⟨⟨x, y⟩, ⟨x', y'⟩, ⟨hx.1, hx.2, hy⟩, ⟨hx'.1, hx'.2, hy'⟩, hnearx, hneary⟩
  · rintro ⟨p, q, ⟨hx, hxw, hy⟩, ⟨hx', hxw', hy'⟩, hnearx, hneary⟩
    exact ⟨⟨p.x, q.x, ⟨hx, hxw⟩, ⟨hx', hxw'⟩, hnearx⟩, p.y, q.y, hy, hy', hneary⟩

theorem meets_iff_between (hpadding : 0 < padding) : r.meets s padding = true ↔
    ((r.columnsBetween s).ncard : Int) < padding ∧ ((r.rowsBetween s).ncard : Int) < padding := by
  have hx : r.x < r.right ∧ s.x < s.right := by unfold right; omega
  have hy : r.y < r.bottom ∧ s.y < s.bottom := by unfold bottom; omega
  rw [columnsBetween, ncard_numbersBetween_lt_iff hx.1 hx.2 hpadding, rowsBetween,
    ncard_numbersBetween_lt_iff hy.1 hy.2 hpadding, meets_iff]
  rfl

theorem meets_zero_iff : r.meets s 0 = true ↔ ∃ p, r.contains p = true ∧ s.contains p = true := by
  rw [meets_iff_near hrw hrh hsw hsh le_rfl]
  constructor
  · rintro ⟨⟨x, y⟩, ⟨x', y'⟩, hp, hq, hnear⟩
    simp only [Point.chebyshev] at hnear
    obtain ⟨rfl, rfl⟩ : x = x' ∧ y = y' := by omega
    exact ⟨_, hp, hq⟩
  · rintro ⟨p, hp, hq⟩
    exact ⟨p, p, hp, hq, by simp [Point.chebyshev]⟩

end Sides

end Rect

/-! ## Lists of rooms -/

namespace Room

variable {padding : Int} {rooms : List Room}

theorem anyMeet_eq_false_iff : anyMeet padding rooms = false ↔
    rooms.Pairwise fun r s => r.meets s.toRect padding = false := by
  induction rooms with
  | nil => exact iff_of_true rfl .nil
  | cons r rest ih =>
    rw [anyMeet, Bool.or_eq_false_iff, List.any_eq_false, List.pairwise_cons, ih]
    simp only [Bool.not_eq_true]

/-- The places of the two rooms may come in either order. -/
theorem anyMeet_iff : anyMeet padding rooms = true ↔
    ∃ (i j : Nat) (r s : Room), i ≠ j ∧ rooms[i]? = some r ∧ rooms[j]? = some s ∧
      r.meets s.toRect padding = true := by
  rw [← Bool.not_eq_false, anyMeet_eq_false_iff, List.pairwise_iff_getElem]
  constructor
  · intro h
    push Not at h
    obtain ⟨i, j, hi, hj, hlt, hmeets⟩ := h
    exact ⟨i, j, rooms[i], rooms[j], hlt.ne, List.getElem?_eq_getElem hi,
      List.getElem?_eq_getElem hj, eq_true_of_ne_false hmeets⟩
  · rintro ⟨i, j, r, s, hne, hr, hs, hmeets⟩ h
    obtain ⟨hi, rfl⟩ := List.getElem?_eq_some_iff.mp hr
    obtain ⟨hj, rfl⟩ := List.getElem?_eq_some_iff.mp hs
    rcases hne.lt_or_gt with hlt | hgt
    · rw [h i j hi hj hlt] at hmeets
      cases hmeets
    · rw [Rect.meets_comm, h j i hj hi hgt] at hmeets
      cases hmeets

theorem anyMeet_perm {other : List Room} (h : rooms.Perm other) :
    anyMeet padding other = anyMeet padding rooms := by
  have hsymm : ∀ {r s : Room}, r.meets s.toRect padding = false →
      s.meets r.toRect padding = false := fun {r s} hmeets => by rwa [Rect.meets_comm]
  rw [Bool.eq_iff_iff, ← not_iff_not, Bool.not_eq_true, Bool.not_eq_true, anyMeet_eq_false_iff,
    anyMeet_eq_false_iff]
  exact (h.pairwise_iff hsymm).symm

theorem anyMeet_mono {wider : Int} (hle : padding ≤ wider) (h : anyMeet padding rooms = true) :
    anyMeet wider rooms = true := by
  cases hwider : anyMeet wider rooms with
  | true => rfl
  | false =>
    have hnone : anyMeet padding rooms = false := anyMeet_eq_false_iff.mpr
      ((anyMeet_eq_false_iff.mp hwider).imp fun hmeets => Rect.meets_mono hle hmeets)
    rw [hnone] at h
    cases h

/-- Rooms with sides meet with a padding if they have points at most the padding apart; that is, if
fewer columns and fewer rows than the padding lie between them, and without a padding, if they have a
point in common. It does not matter which room comes first, whatever the rooms and the padding. A
list has rooms that meet if two at different places do, so its order does not matter, and with a
wider padding they still meet. -/
theorem meeting_exact (a b : Room) (padding : Int) (rooms : List Room) :
    (0 < a.w → 0 < a.h → 0 < b.w → 0 < b.h → 0 ≤ padding →
      (a.meets b.toRect padding = true ↔ ∃ p q, a.contains p = true ∧ b.contains q = true ∧
        (p.chebyshev q : Int) ≤ padding) ∧
      (0 < padding → (a.meets b.toRect padding = true ↔
        ((a.columnsBetween b.toRect).ncard : Int) < padding ∧
          ((a.rowsBetween b.toRect).ncard : Int) < padding)) ∧
      (padding = 0 → (a.meets b.toRect padding = true ↔
        ∃ p, a.contains p = true ∧ b.contains p = true))) ∧
    a.meets b.toRect padding = b.meets a.toRect padding ∧
    (anyMeet padding rooms = true ↔ ∃ (i j : Nat) (r s : Room), i ≠ j ∧ rooms[i]? = some r ∧
      rooms[j]? = some s ∧ r.meets s.toRect padding = true) ∧
    (∀ other, rooms.Perm other → anyMeet padding other = anyMeet padding rooms) ∧
    (∀ wider, padding ≤ wider → anyMeet padding rooms = true → anyMeet wider rooms = true) := by
  refine ⟨fun haw hah hbw hbh hpadding => ⟨?near, ?between, ?common⟩, Rect.meets_comm _ _ _,
    anyMeet_iff, fun _ => anyMeet_perm, fun _ => anyMeet_mono⟩
  case near => exact Rect.meets_iff_near haw hah hbw hbh hpadding
  case between => exact Rect.meets_iff_between haw hah hbw hbh
  case common =>
    rintro rfl
    exact Rect.meets_zero_iff haw hah hbw hbh

/-- Two rooms with one column and no row between them: without a padding and with a padding of one
they do not meet, and with a padding of two they do, in either order. -/
theorem meeting_exact_oneColumn :
    let a : Room := .ofRect 0 ⟨1, 1, 3, 3⟩
    let b : Room := .ofRect 1 ⟨5, 2, 4, 3⟩
    (0 < a.w ∧ 0 < a.h ∧ 0 < b.w ∧ 0 < b.h) ∧
      (¬ ∃ p, a.contains p = true ∧ b.contains p = true) ∧
      (¬ ∃ p q, a.contains p = true ∧ b.contains q = true ∧ (p.chebyshev q : Int) ≤ 1) ∧
      ((a.columnsBetween b.toRect).ncard : Int) < 2 ∧ anyMeet 1 [b, a] = false ∧
      anyMeet 3 [b, a] = true := by
  intro a b
  obtain ⟨hzero, -⟩ := meeting_exact a b 0 []
  obtain ⟨hone, -, -, hperm, -⟩ := meeting_exact a b 1 [a, b]
  obtain ⟨htwo, -, hany, -, hwider⟩ := meeting_exact a b 2 [b, a]
  have hplaces : anyMeet 2 [b, a] = true := hany.mpr ⟨1, 0, a, b, by decide, rfl, rfl, by decide⟩
  refine ⟨by decide, ?_, ?_, ?_, ?_, hwider 3 (by decide) hplaces⟩
  · rw [← (hzero (by decide) (by decide) (by decide) (by decide) le_rfl).2.2 rfl]
    decide
  · rw [← (hone (by decide) (by decide) (by decide) (by decide) (by decide)).1]
    decide
  · exact (((htwo (by decide) (by decide) (by decide) (by decide) (by decide)).2.1
      (by decide)).mp (by decide)).1
  · rw [hperm [b, a] (List.Perm.swap b a [])]
    decide

end Room

end Dungeon
