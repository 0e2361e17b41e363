import Dungeon.Random
import Mathlib

/-!
# Powers of a step

One step of the state is linear over the field of two elements, so a combination of iterates of the
step, with exclusive or for the sum, is a polynomial in it. The step satisfies a polynomial of degree
32, and calculations with powers of the step come down to calculations with polynomials modulo this
one. These are written as numbers: bit `i` is the coefficient of the `i`-th power.

Results:
1. `Source.linear_eq_zero`: a linear map is zero if it is zero on single bits.
2. `Source.combination_modulus`: the polynomial that the step satisfies.
3. `Source.combination_times`: applying a product is applying one factor after the other.
4. `Source.combination_powerX`: a power of the step as a combination of its first 32 iterates.
-/

namespace Dungeon.Source

/-! ## Linear combinations -/

theorem step_zero : step 0 = 0 := by decide

theorem xor_xor_swap (a b c d : UInt32) : (a ^^^ b) ^^^ (c ^^^ d) = (a ^^^ c) ^^^ (b ^^^ d) := by
  rw [UInt32.xor_assoc, ← UInt32.xor_assoc b, UInt32.xor_comm b, UInt32.xor_assoc, UInt32.xor_assoc]

theorem step_xor (x y : UInt32) : step (x ^^^ y) = step x ^^^ step y := by
  have hstep : ∀ x : UInt32, step x =
      let first := x ^^^ x <<< 13
      let second := first ^^^ first >>> 17
      second ^^^ second <<< 5 := fun _ => rfl
  simp only [hstep]
  rw [UInt32.shiftLeft_xor, xor_xor_swap x, UInt32.shiftRight_xor, xor_xor_swap (x ^^^ _),
    UInt32.shiftLeft_xor, xor_xor_swap]

/-- A multiple of a state by a coefficient. -/
def scale (c : Bool) (x : UInt32) : UInt32 := if c then x else 0

theorem scale_bne (c d : Bool) (x : UInt32) : scale (c ^^ d) x = scale c x ^^^ scale d x := by
  cases c <;> cases d <;> simp [scale]

theorem scale_xor (c : Bool) (x y : UInt32) : scale c (x ^^^ y) = scale c x ^^^ scale c y := by
  cases c <;> simp [scale]

theorem step_scale (c : Bool) (x : UInt32) : step (scale c x) = scale c (step x) := by
  cases c with
  | false => exact step_zero
  | true => rfl

/-- The sum of the iterates of the step from the zeroth up to but not including the `n`-th, each with
its coefficient in a polynomial. -/
def combination : Nat → Nat → UInt32 → UInt32
  | 0, _, _ => 0
  | n + 1, p, x => scale (p.testBit 0) x ^^^ combination n (p / 2) (step x)

theorem combination_zero (n : Nat) (x : UInt32) : combination n 0 x = 0 := by
  induction n generalizing x with
  | zero => rfl
  | succ n ih => rw [combination, Nat.zero_div, ih, Nat.zero_testBit, UInt32.xor_zero]; rfl

theorem combination_one (n : Nat) (x : UInt32) : combination (n + 1) 1 x = x := by
  rw [combination, Nat.div_eq_of_lt (by decide), combination_zero, UInt32.xor_zero]
  rfl

theorem combination_xor (n p q : Nat) (x : UInt32) :
    combination n (p ^^^ q) x = combination n p x ^^^ combination n q x := by
  induction n generalizing p q x with
  | zero => exact UInt32.xor_self.symm
  | succ n ih =>
    rw [combination, Nat.testBit_xor, scale_bne, Nat.xor_div_two, ih, xor_xor_swap]
    rfl

theorem combination_apply_xor (n p : Nat) (x y : UInt32) :
    combination n p (x ^^^ y) = combination n p x ^^^ combination n p y := by
  induction n generalizing p x y with
  | zero => exact UInt32.xor_self.symm
  | succ n ih =>
    rw [combination, scale_xor, step_xor, ih, xor_xor_swap]
    rfl

theorem combination_apply_zero (n p : Nat) : combination n p 0 = 0 := by
  have h := combination_apply_xor n p 0 0
  rwa [UInt32.xor_self, UInt32.xor_self] at h

theorem combination_step (n p : Nat) (x : UInt32) :
    combination n p (step x) = step (combination n p x) := by
  induction n generalizing p x with
  | zero => exact step_zero.symm
  | succ n ih => rw [combination, combination, step_xor, ih, step_scale]

theorem combination_double (n p : Nat) (x : UInt32) :
    combination (n + 1) (2 * p) x = step (combination n p x) := by
  have hbit : (2 * p).testBit 0 = false := by simp
  have hhalf : 2 * p / 2 = p := Nat.mul_div_cancel_left p (by decide)
  rw [combination, hbit, hhalf, combination_step]
  exact UInt32.zero_xor

/-- A polynomial of low degree does not need the last iterate. -/
theorem combination_succ {n p : Nat} (h : p < 2 ^ n) (x : UInt32) :
    combination (n + 1) p x = combination n p x := by
  induction n generalizing p x with
  | zero =>
    have hp : p = 0 := Nat.lt_one_iff.mp h
    rw [hp, combination_zero, combination_zero]
  | succ n ih =>
    have hhalf : p / 2 < 2 ^ n := Nat.div_lt_of_lt_mul (by rwa [← Nat.pow_succ'])
    rw [combination, ih hhalf, combination]

/-! ## Words bit by bit -/

theorem lt_two_pow_of_testBit_eq_false {x n : Nat} (h : x < 2 ^ (n + 1))
    (htop : x.testBit n = false) : x < 2 ^ n := by
  refine Nat.lt_pow_two_of_testBit x fun i hi => ?_
  rcases hi.eq_or_lt with rfl | hlt
  · exact htop
  · exact Nat.testBit_lt_two_pow (h.trans_le (Nat.pow_le_pow_right (by decide) hlt))

/-- A linear map that takes every single bit to zero takes every word to zero. -/
theorem linear_eq_zero {f : UInt32 → UInt32} (hf : ∀ x y, f (x ^^^ y) = f x ^^^ f y)
    (hbit : ∀ i < 32, f (.ofNat (2 ^ i)) = 0) (x : UInt32) : f x = 0 := by
  have hzero : f 0 = 0 := by
    have h := hf 0 0
    rwa [UInt32.xor_self, UInt32.xor_self] at h
  -- The induction clears the bits of a word from the highest one down.
  have hlow : ∀ n ≤ 32, ∀ x : UInt32, x.toNat < 2 ^ n → f x = 0 := by
    intro n
    induction n with
    | zero =>
      intro _ x hx
      have hx0 : x = 0 := UInt32.toNat_inj.mp (Nat.lt_one_iff.mp hx)
      rw [hx0, hzero]
    | succ n ih =>
      intro hn x hx
      cases htop : x.toNat.testBit n with
      | false => exact ih (by omega) x (lt_two_pow_of_testBit_eq_false hx htop)
      | true =>
        have hpow : (UInt32.ofNat (2 ^ n)).toNat = 2 ^ n := by
          rw [UInt32.toNat_ofNat', Nat.mod_eq_of_lt (Nat.pow_lt_pow_right (by decide) hn)]
        have hrest : f (x ^^^ .ofNat (2 ^ n)) = 0 := by
          refine ih (by omega) _ (lt_two_pow_of_testBit_eq_false ?_ ?_)
          · rw [UInt32.toNat_xor, hpow]
            exact Nat.xor_lt_two_pow hx (Nat.pow_lt_pow_right (by decide) n.lt_succ_self)
          · rw [UInt32.toNat_xor, hpow, Nat.testBit_xor, htop, Nat.testBit_two_pow_self]
            rfl
        rwa [hf, hbit n hn, UInt32.xor_zero] at hrest
  exact hlow 32 le_rfl x x.toNat_lt

/-! ## Polynomials modulo that of the step -/

/-- The polynomial of degree 32 that the step satisfies. -/
def modulus : Nat := 0x1003ec241

/-- The product of a polynomial with the unknown. -/
def timesX (p : Nat) : Nat := if (2 * p).testBit 32 then 2 * p ^^^ modulus else 2 * p

/-- The product of a polynomial of degree below `n` with another one. -/
def times : Nat → Nat → Nat → Nat
  | 0, _, _ => 0
  | n + 1, p, q => (if p.testBit 0 then q else 0) ^^^ times n (p / 2) (timesX q)

/-- The power of the unknown with an exponent below `2 ^ n`. -/
def powerX : Nat → Nat → Nat
  | 0, _ => 1
  | n + 1, e =>
      let root := powerX n (e / 2)
      let square := times 32 root root
      if e.testBit 0 then timesX square else square

theorem combination_modulus (x : UInt32) : combination 33 modulus x = 0 :=
  linear_eq_zero (combination_apply_xor 33 modulus) (by decide +kernel) x

theorem timesX_lt {p : Nat} (h : p < 2 ^ 32) : timesX p < 2 ^ 32 := by
  have hdouble : 2 * p < 2 ^ 33 := by omega
  unfold timesX
  split
  · next htop =>
    refine lt_two_pow_of_testBit_eq_false (Nat.xor_lt_two_pow hdouble (by decide)) ?_
    rw [Nat.testBit_xor, htop]
    decide
  · next htop =>
    exact lt_two_pow_of_testBit_eq_false hdouble (by rwa [Bool.not_eq_true] at htop)

theorem combination_timesX {p : Nat} (h : p < 2 ^ 32) (x : UInt32) :
    combination 32 (timesX p) x = step (combination 32 p x) := by
  rw [← combination_succ (timesX_lt h), ← combination_double]
  unfold timesX
  split
  · rw [combination_xor, combination_modulus, UInt32.xor_zero]
  · rfl

theorem times_lt {q : Nat} (h : q < 2 ^ 32) (n p : Nat) : times n p q < 2 ^ 32 := by
  induction n generalizing p q with
  | zero => exact Nat.two_pow_pos 32
  | succ n ih =>
    refine Nat.xor_lt_two_pow ?_ (ih (timesX_lt h) (p / 2))
    split
    · exact h
    · decide

theorem combination_times {q : Nat} (h : q < 2 ^ 32) (n p : Nat) (x : UInt32) :
    combination 32 (times n p q) x = combination n p (combination 32 q x) := by
  induction n generalizing p q with
  | zero => exact combination_zero 32 x
  | succ n ih =>
    have hfirst : combination 32 (if p.testBit 0 then q else 0) x
        = scale (p.testBit 0) (combination 32 q x) := by
      cases p.testBit 0 with
      | false => exact combination_zero 32 x
      | true => rfl
    rw [times, combination_xor, hfirst, ih (timesX_lt h), combination_timesX h]
    rfl

theorem powerX_lt (n e : Nat) : powerX n e < 2 ^ 32 := by
  induction n generalizing e with
  | zero => exact Nat.one_lt_two_pow (by decide)
  | succ n ih =>
    have hsquare := times_lt (ih (e / 2)) 32 (powerX n (e / 2))
    unfold powerX
    dsimp only
    split
    · exact timesX_lt hsquare
    · exact hsquare

theorem combination_powerX {n e : Nat} (h : e < 2 ^ n) (x : UInt32) :
    combination 32 (powerX n e) x = step^[e] x := by
  induction n generalizing e x with
  | zero =>
    have he : e = 0 := Nat.lt_one_iff.mp h
    rw [he]
    exact combination_one 31 x
  | succ n ih =>
    have hhalf : e / 2 < 2 ^ n := Nat.div_lt_of_lt_mul (by rwa [← Nat.pow_succ'])
    have hroot := powerX_lt n (e / 2)
    have hsquare : combination 32 (times 32 (powerX n (e / 2)) (powerX n (e / 2))) x
        = step^[2 * (e / 2)] x := by
      rw [combination_times hroot, ih hhalf, ih hhalf, ← Function.iterate_add_apply, ← two_mul]
    unfold powerX
    dsimp only
    split
    · next hodd =>
      rw [Nat.testBit_zero, decide_eq_true_eq] at hodd
      rw [combination_timesX (times_lt hroot _ _), hsquare, ← Function.iterate_succ_apply' step]
      congr 1
      omega
    · next heven =>
      rw [Nat.testBit_zero, decide_eq_true_eq] at heven
      rw [hsquare]
      congr 1
      omega

end Dungeon.Source
