import Mathlib.Data.List.Basic
import Dungeon.Text.Decimal

/-!
# Decimal digits

A whole number is written through its last digit and the number without it, and everything about its
text follows along this recursion.

Results:
1. `Text.ofNat_of_lt`, `Text.ofNat_of_ge`: the recursion.
2. `Text.readNat?_ofNat`: what is written is read back.
3. `Text.head?_ofNat`: no zero stands in front of other digits.
-/

namespace Dungeon.Text

/-! ## Digits -/

/-- What the lemmas below need of the ten digits. -/
theorem digitByte_spec {d : Nat} (h : d < 10) :
    isDigit (digitByte d) = true ∧ digitValue (digitByte d) = d ∧
      (digitByte d = byte '0' → d = 0) := by
  have hall : ∀ d < 10, isDigit (digitByte d) = true ∧ digitValue (digitByte d) = d ∧
      (digitByte d = byte '0' → d = 0) := by decide
  exact hall d h

theorem natValue_concat (digits : Text) (c : UInt8) :
    natValue (digits ++ [c]) = 10 * natValue digits + digitValue c := by
  rw [natValue, List.foldl_append]
  rfl

/-! ## The recursion -/

/-- There are enough steps for all digits, so further ones are not used. -/
theorem digitsRev_congr {steps more n : Nat} (hsteps : n < steps) (hmore : n < more) :
    digitsRev steps n = digitsRev more n := by
  induction steps generalizing more n with
  | zero => exact absurd hsteps (Nat.not_lt_zero n)
  | succ steps ih =>
    cases more with
    | zero => exact absurd hmore (Nat.not_lt_zero n)
    | succ more =>
      simp only [digitsRev]
      split
      · rfl
      · next hn => rw [ih (by omega) (show n / 10 < more by omega)]

theorem ofNat_of_lt {n : Nat} (h : n < 10) : ofNat n = [digitByte n] := by
  rw [ofNat, digitsRev, if_pos h]
  rfl

theorem ofNat_of_ge {n : Nat} (h : 10 ≤ n) :
    ofNat n = ofNat (n / 10) ++ [digitByte (n % 10)] := by
  rw [ofNat, digitsRev, if_neg (Nat.not_lt.mpr h), List.reverse_cons, List.map_append,
    digitsRev_congr (by omega : n / 10 < n) (Nat.lt_succ_self (n / 10))]
  rfl

/-- A property of written numbers, along their last digits. -/
theorem ofNat_induction {P : Nat → Text → Prop} (one : ∀ n < 10, P n [digitByte n])
    (more : ∀ n, 10 ≤ n → P (n / 10) (ofNat (n / 10)) →
      P n (ofNat (n / 10) ++ [digitByte (n % 10)])) (n : Nat) : P n (ofNat n) := by
  induction n using Nat.strongRecOn with
  | _ n ih =>
    rcases Nat.lt_or_ge n 10 with hlt | hge
    · rw [ofNat_of_lt hlt]
      exact one n hlt
    · rw [ofNat_of_ge hge]
      exact more n hge (ih (n / 10) (by omega))

/-! ## What a written number looks like -/

theorem ofNat_ne_nil (n : Nat) : ofNat n ≠ [] := by
  induction n using ofNat_induction with
  | one n hlt => exact List.cons_ne_nil _ _
  | more n hge ih => exact List.append_ne_nil_of_right_ne_nil _ (List.cons_ne_nil _ _)

theorem isDigit_of_mem_ofNat (n : Nat) : ∀ c ∈ ofNat n, isDigit c = true := by
  induction n using ofNat_induction with
  | one n hlt =>
    intro c hc
    rw [List.mem_singleton.mp hc]
    exact (digitByte_spec hlt).1
  | more n hge ih =>
    intro c hc
    rcases List.mem_append.mp hc with hc | hc
    · exact ih c hc
    · rw [List.mem_singleton.mp hc]
      exact (digitByte_spec (Nat.mod_lt n (by decide))).1

theorem natValue_ofNat (n : Nat) : natValue (ofNat n) = n := by
  induction n using ofNat_induction with
  | one n hlt =>
    show 10 * 0 + digitValue (digitByte n) = n
    rw [(digitByte_spec hlt).2.1, Nat.mul_zero, Nat.zero_add]
  | more n hge ih =>
    rw [natValue_concat, ih, (digitByte_spec (Nat.mod_lt n (by decide))).2.1]
    exact Nat.div_add_mod n 10

/-- Only zero is written with a zero in front. -/
theorem head?_ofNat (n : Nat) : (ofNat n).head? = some (byte '0') → n = 0 := by
  induction n using ofNat_induction with
  | one n hlt =>
    intro h
    exact (digitByte_spec hlt).2.2 (Option.some.inj h)
  | more n hge ih =>
    intro h
    rw [List.head?_append_of_ne_nil _ (ofNat_ne_nil _)] at h
    have hzero := ih h
    omega

/-! ## Reading back -/

theorem readNat?_of_digits {t : Text} (hne : t ≠ []) (h : ∀ c ∈ t, isDigit c = true) :
    readNat? t = some (natValue t) := by
  rw [readNat?, if_pos ⟨hne, List.all_eq_true.mpr h⟩]

theorem readNat?_ofNat (n : Nat) : readNat? (ofNat n) = some n := by
  rw [readNat?_of_digits (ofNat_ne_nil n) (isDigit_of_mem_ofNat n), natValue_ofNat]

theorem readInt?_minus {t : Text} {n : Nat} (h : readNat? t = some n) :
    readInt? (byte '-' :: t) = some (-(n : Int)) := by
  have hsign : splitSign (byte '-' :: t) = (true, t) := rfl
  rw [readInt?, hsign]
  dsimp only
  rw [h]
  rfl

theorem readInt?_plus {t : Text} {n : Nat} (h : readNat? t = some n) :
    readInt? (byte '+' :: t) = some (n : Int) := by
  have hsign : splitSign (byte '+' :: t) = (false, t) := rfl
  rw [readInt?, hsign]
  dsimp only
  rw [h]
  rfl

end Dungeon.Text
