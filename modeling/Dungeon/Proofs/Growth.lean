import Dungeon.Proofs.Chambers

/-!
# Growth of chambers

A chamber grows in rounds, and a round that changes anything makes the two sides longer by one at
least. Neither side gets longer than the limit, so there are enough rounds to come to one that
changes nothing, and then no side can grow: each has reached the limit or meets a point that is not
free. As long as all around is free, a round turns a square into the next larger one.

Results:
1. `Chambers.growFully_maximal`, `Chambers.grow_spec`: how far a chamber grows.
2. `Chambers.contains_grow_near`: a chamber holds all points that are less steps away than its
   clearance, if they are free.
-/

namespace Dungeon.Chambers

variable {free : Point → Bool} {limit : Int} {r : Rect} {side : Side} {q s : Point}

/-! ## One strip -/

/-- No side of the rectangle is longer than the limit. -/
structure Within (limit : Int) (r : Rect) : Prop where
  width : r.w ≤ limit
  height : r.h ≤ limit

/-- Each side of the rectangle has reached the limit, or the strip beside it holds a point that is
not free. -/
def Maximal (free : Point → Bool) (limit : Int) (r : Rect) : Prop :=
  ∀ side : Side, side.extent r = limit ∨ ∃ q, (side.strip r).contains q = true ∧ free q = false

theorem growSide_cases (free : Point → Bool) (limit : Int) (r : Rect) (side : Side) :
    growSide free limit r side = side.widen r ∧ side.extent r < limit ∨
      growSide free limit r side = r ∧
        (limit ≤ side.extent r ∨ ∃ q, (side.strip r).contains q = true ∧ free q = false) := by
  unfold growSide
  split
  · next h => exact .inl ⟨rfl, h.1⟩
  · next h =>
    refine .inr ⟨rfl, ?_⟩
    rcases not_and_or.mp h with h | h
    · exact .inl (not_lt.mp h)
    · rw [List.all_eq_true] at h
      push Not at h
      obtain ⟨q, hq, hfree⟩ := h
      exact .inr ⟨q, Rect.mem_points.mp hq, by simpa using hfree⟩

theorem growSide_of_free (hextent : side.extent r < limit)
    (hfree : ∀ q, (side.strip r).contains q = true → free q = true) :
    growSide free limit r side = side.widen r := by
  rcases growSide_cases free limit r side with ⟨h, _⟩ | ⟨_, h | ⟨q, hq, hblocked⟩⟩
  · exact h
  · omega
  · rw [hfree q hq] at hblocked
    cases hblocked

theorem widen_sides (side : Side) (r : Rect) :
    (side.widen r).w + (side.widen r).h = r.w + r.h + 1 := by
  cases side <;> simp only [Side.widen] <;> ring

theorem contains_widen_of (side : Side) (h : r.contains q = true) :
    (side.widen r).contains q = true := by
  rw [Rect.contains_iff] at *
  cases side <;> simp only [Side.widen] <;> omega

theorem Within.growSide (h : Within limit r) (side : Side) :
    Within limit (growSide free limit r side) := by
  have hwidth := h.width
  have hheight := h.height
  rcases growSide_cases free limit r side with ⟨heq, hextent⟩ | ⟨heq, _⟩
  · rw [heq]
    constructor <;> cases side <;> simp only [Side.widen, Side.extent] at * <;> omega
  · rw [heq]
    exact h

theorem contains_growSide (side : Side) (h : r.contains q = true) :
    (growSide free limit r side).contains q = true := by
  rcases growSide_cases free limit r side with ⟨heq, _⟩ | ⟨heq, _⟩
  · rw [heq]
    exact contains_widen_of side h
  · rwa [heq]

/-! ## Rounds -/

/-- Trying some sides in turn either leaves the rectangle as it is, since none of them grows, or
makes its sides longer. -/
theorem foldl_growSide (free : Point → Bool) (limit : Int) (sides : List Side) (r : Rect) :
    sides.foldl (growSide free limit) r = r ∧ (∀ side ∈ sides, growSide free limit r side = r) ∨
      r.w + r.h < (sides.foldl (growSide free limit) r).w
        + (sides.foldl (growSide free limit) r).h := by
  induction sides generalizing r with
  | nil => exact .inl ⟨rfl, fun side h => by cases h⟩
  | cons side rest ih =>
    rw [List.foldl_cons]
    rcases growSide_cases free limit r side with ⟨hgrown, _⟩ | ⟨hsame, _⟩
    · have hsides := widen_sides side r
      rw [hgrown]
      right
      rcases ih (side.widen r) with ⟨hrest, _⟩ | hlonger
      · rw [hrest]
        omega
      · omega
    · rw [hsame]
      refine (ih r).imp_left fun ⟨hrest, hall⟩ => ⟨hrest, ?_⟩
      exact List.forall_mem_cons.mpr ⟨hsame, hall⟩

theorem Within.growOnce (h : Within limit r) : Within limit (growOnce free limit r) :=
  List.foldlRecOn _ _ h fun _ hr side _ => hr.growSide side

theorem contains_growOnce (h : r.contains q = true) : (growOnce free limit r).contains q = true :=
  List.foldlRecOn (motive := fun (r : Rect) => r.contains q = true) _ _ h fun _ hr side _ =>
    contains_growSide side hr

theorem contains_growFully (rounds : Nat) (h : r.contains q = true) :
    (growFully free limit rounds r).contains q = true := by
  induction rounds generalizing r with
  | zero => exact h
  | succ rounds ih =>
    rw [growFully]
    split
    · exact h
    · exact ih (contains_growOnce h)

/-- A round that changes nothing has tried every side in vain. -/
theorem maximal_of_growOnce_eq (h : Within limit r) (heq : growOnce free limit r = r) :
    Maximal free limit r := by
  intro side
  have hstuck : growSide free limit r side = r := by
    rcases foldl_growSide free limit [.right, .down, .left, .up] r with
      ⟨_, hall⟩ | hlonger
    · exact hall side (by cases side <;> decide)
    · rw [growOnce] at heq
      rw [heq] at hlonger
      exact absurd hlonger (lt_irrefl _)
  rcases growSide_cases free limit r side with ⟨hgrown, _⟩ | ⟨_, hlimit | hblocked⟩
  · have hsides := widen_sides side r
    rw [← hgrown, hstuck] at hsides
    omega
  · refine .inl (le_antisymm ?_ hlimit)
    cases side
    · exact h.width
    · exact h.height
    · exact h.width
    · exact h.height
  · exact .inr hblocked

/-- The sides can grow to twice the limit together, so with a round for every column and row that
is missing the rectangle comes to a standstill. -/
theorem growFully_maximal (rounds : Nat) (h : Within limit r)
    (hrounds : 2 * limit < r.w + r.h + rounds) :
    Within limit (growFully free limit rounds r) ∧
      Maximal free limit (growFully free limit rounds r) := by
  induction rounds generalizing r with
  | zero =>
    have hwidth := h.width
    have hheight := h.height
    omega
  | succ rounds ih =>
    rw [growFully]
    split
    · next heq => exact ⟨h, maximal_of_growOnce_eq h heq⟩
    · next hne =>
      refine ih h.growOnce ?_
      rcases foldl_growSide free limit [.right, .down, .left, .up] r with
        ⟨heq, _⟩ | hlonger
      · exact absurd heq hne
      · rw [growOnce]
        omega

/-! ## Squares -/

/-- The points that are so many steps, or less, away from a point. -/
def square (s : Point) (k : Nat) : Rect := (Rect.mk s.x s.y 1 1).grow k

theorem contains_square {k : Nat} : (square s k).contains q = true ↔ s.chebyshev q ≤ k := by
  rw [Rect.contains_iff]
  simp only [square, Rect.grow, Point.chebyshev]
  omega

theorem growOnce_square {k : Nat} (hfree : ∀ q, s.chebyshev q ≤ k + 1 → free q = true)
    (hlimit : 2 * (k : Int) + 2 < limit) :
    growOnce free limit (square s k) = square s (k + 1) := by
  have hstrip : ∀ (side : Side) (r : Rect),
      (∀ q, (side.strip r).contains q = true → (square s (k + 1)).contains q = true) →
      side.extent r < limit → growSide free limit r side = side.widen r :=
    fun side r hinside hextent =>
      growSide_of_free hextent fun q hq => hfree q (contains_square.mp (hinside q hq))
  simp only [Rect.contains_iff, square, Rect.grow] at hstrip
  -- Right, down, left and up in turn: each strip lies in the next square and is free.
  rw [growOnce, List.foldl_cons, List.foldl_cons, List.foldl_cons, List.foldl_cons, List.foldl_nil,
    hstrip .right, hstrip .down, hstrip .left, hstrip .up]
  all_goals
    simp only [Side.strip, Side.widen, Side.extent, square, Rect.grow, Rect.right, Rect.bottom,
      Rect.mk.injEq]
    omega

theorem growFully_square {k n : Nat} (rounds : Nat) (hfree : ∀ q, s.chebyshev q ≤ n → free q = true)
    (hlimit : 2 * (n : Int) < limit) (hle : k ≤ n) (hrounds : n ≤ k + rounds)
    (hq : s.chebyshev q ≤ n) : (growFully free limit rounds (square s k)).contains q = true := by
  induction rounds generalizing k with
  | zero =>
    have hkn : k = n := by omega
    subst hkn
    exact contains_square.mpr hq
  | succ rounds ih =>
    by_cases hkn : k = n
    · subst hkn
      exact contains_growFully _ (contains_square.mpr hq)
    · have hnext : growOnce free limit (square s k) = square s (k + 1) :=
        growOnce_square (fun q hq => hfree q (by omega)) (by omega)
      have hne : square s (k + 1) ≠ square s k := by
        simp only [square, Rect.grow, Ne, Rect.mk.injEq]
        omega
      rw [growFully, hnext, if_neg hne]
      exact ih (by omega) (by omega)

/-! ## Chambers -/

variable {peak : Peak}

theorem grow_spec (free : Point → Bool) (peak : Peak) :
    Within (longestSide peak) (grow free peak) ∧
      Maximal free (longestSide peak) (grow free peak) := by
  have hone : (1 : Int) ≤ longestSide peak := by
    rw [longestSide]
    omega
  refine growFully_maximal _ ⟨hone, hone⟩ ?_
  push_cast
  omega

theorem contains_grow_point : (grow free peak).contains peak.point = true :=
  contains_growFully _ (by simp [Rect.contains_iff])

/-- Where all is free the chamber holds every point nearer than its clearance. -/
theorem contains_grow_near (hfree : ∀ q, peak.point.chebyshev q < peak.clearance → free q = true)
    (hq : peak.point.chebyshev q < peak.clearance) : (grow free peak).contains q = true := by
  have hstart : square peak.point 0 = ⟨peak.point.x, peak.point.y, 1, 1⟩ := by
    simp [square, Rect.grow]
  rw [grow, ← hstart]
  refine growFully_square (n := peak.clearance - 1) _ (fun q hq => hfree q (by omega)) ?_
    (Nat.zero_le _) ?_ (by omega)
  all_goals
    rw [longestSide]
    omega

end Dungeon.Chambers
