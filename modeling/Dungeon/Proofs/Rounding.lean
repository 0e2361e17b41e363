import Dungeon.Random
import Mathlib

/-!
# Numbers that need no rounding

A finite number stands for a fraction, a whole count of a power of two. A format can write such a
fraction if the count has no more bits than its fraction and the leading one, and the power lies
between those of its least and of its greatest numbers. The number nearest to a fraction that can be
written stands for that very fraction, so an operation whose exact result can be written is exact.

Results:
1. `Number.binaryExponent_spec`: the two powers of two next to a fraction.
2. `Number.magnitude_roundCode`: what the code for a fraction that can be written stands for.
3. `Number.Binary.value?_ofDatum`, `Number.Binary.value?_mul`: rounding keeps such a fraction.
4. `Draw.chance_run`: the words for which a probability holds.
-/

namespace Dungeon.Number

/-! ## Fractions -/

theorem two_zpow_pos (k : ℤ) : (0 : ℚ) < 2 ^ k := zpow_pos (by norm_num) k

theorem scaled_nonneg (count : Nat) (quantum : ℤ) : (0 : ℚ) ≤ count * 2 ^ quantum :=
  mul_nonneg (Nat.cast_nonneg _) (two_zpow_pos _).le

/-- A power of two as a fraction of two natural powers, one of which is one. -/
theorem two_zpow_eq_div (k : ℤ) :
    (2 : ℚ) ^ k = ((2 ^ k.toNat : Nat) : ℚ) / ((2 ^ (-k).toNat : Nat) : ℚ) := by
  push_cast
  rw [← zpow_natCast, ← zpow_natCast, ← zpow_sub₀ (by norm_num)]
  congr 1
  omega

theorem fractionOf_den_pos (count : Nat) (quantum : ℤ) : 0 < (fractionOf count quantum).2 :=
  Nat.two_pow_pos _

theorem fractionOf_value (count : Nat) (quantum : ℤ) :
    ((fractionOf count quantum).1 : ℚ) / (fractionOf count quantum).2 = count * 2 ^ quantum := by
  rw [two_zpow_eq_div, fractionOf, Nat.pow_eq, Nat.pow_eq]
  push_cast
  ring

theorem log2_spec {n : Nat} (hn : 0 < n) :
    (2 : ℚ) ^ (n.log2 : ℤ) ≤ n ∧ (n : ℚ) < 2 ^ ((n.log2 : ℤ) + 1) := by
  constructor
  · rw [zpow_natCast]
    exact_mod_cast Nat.log2_self_le hn.ne'
  · exact_mod_cast Nat.lt_log2_self (n := n)

theorem guess_le_iff {num den : Nat} (hden : 0 < den) (guess : ℤ) :
    den * 2 ^ guess.toNat ≤ num * 2 ^ (-guess).toNat ↔ (2 : ℚ) ^ guess ≤ num / den := by
  have hden' : (0 : ℚ) < den := by exact_mod_cast hden
  have hpow : (0 : ℚ) < ((2 ^ (-guess).toNat : Nat) : ℚ) := by positivity
  rw [two_zpow_eq_div, div_le_div_iff₀ hpow hden', ← Nat.cast_mul, ← Nat.cast_mul, Nat.cast_le,
    mul_comm den]

/-- The binary exponent of a fraction tells the powers of two on its two sides. -/
theorem binaryExponent_spec {num den : Nat} (hnum : 0 < num) (hden : 0 < den) :
    (2 : ℚ) ^ binaryExponent num den ≤ num / den ∧
      (num / den : ℚ) < 2 ^ (binaryExponent num den + 1) := by
  have hden' : (0 : ℚ) < den := by exact_mod_cast hden
  obtain ⟨hnumlo, hnumhi⟩ := log2_spec hnum
  obtain ⟨hdenlo, hdenhi⟩ := log2_spec hden
  -- The guess is the exponent or one more than it.
  have hbelow : (num / den : ℚ) < 2 ^ ((num.log2 : ℤ) - den.log2 + 1) := by
    rw [div_lt_iff₀ hden']
    calc (num : ℚ) < 2 ^ ((num.log2 : ℤ) + 1) := hnumhi
      _ = 2 ^ ((num.log2 : ℤ) - den.log2 + 1) * 2 ^ (den.log2 : ℤ) := by
        rw [← zpow_add₀ (by norm_num)]
        congr 1
        ring
      _ ≤ 2 ^ ((num.log2 : ℤ) - den.log2 + 1) * den :=
        mul_le_mul_of_nonneg_left hdenlo (two_zpow_pos _).le
  have habove : (2 : ℚ) ^ ((num.log2 : ℤ) - den.log2 - 1) ≤ num / den := by
    rw [le_div_iff₀ hden']
    calc (2 : ℚ) ^ ((num.log2 : ℤ) - den.log2 - 1) * den
        ≤ 2 ^ ((num.log2 : ℤ) - den.log2 - 1) * 2 ^ ((den.log2 : ℤ) + 1) :=
          mul_le_mul_of_nonneg_left hdenhi.le (two_zpow_pos _).le
      _ = 2 ^ (num.log2 : ℤ) := by
        rw [← zpow_add₀ (by norm_num)]
        congr 1
        ring
      _ ≤ num := hnumlo
  unfold binaryExponent
  simp only [Nat.pow_eq, guess_le_iff hden]
  split
  · next hguess => exact ⟨hguess, hbelow⟩
  · next hguess => exact ⟨habove, by rw [sub_add_cancel]; exact lt_of_not_ge hguess⟩

theorem roundHalfEven_mul {den : Nat} (hden : 0 < den) (n : Nat) :
    roundHalfEven (n * den) den = n := by
  rw [roundHalfEven, Nat.mul_mod_left, Nat.mul_div_cancel n hden]
  simp [hden]

/-! ## Fractions that a format can write -/

namespace Format

/-- The exponent of the unit after that in which the greatest finite magnitudes are counted. -/
def quantumBound (f : Format) : ℤ := f.leastQuantum + (2 ^ f.exponent - 2 : ℤ)

theorem quantumBound_eq (f : Format) :
    f.quantumBound = f.leastQuantum + ((2 ^ f.exponent : Nat) - 2 : ℤ) := by
  rw [quantumBound]
  push_cast
  rfl

/-- The fraction is a count of a unit, and the format has room for the count and for the unit. -/
structure Writes (f : Format) (r : ℚ) (count : Nat) (quantum : ℤ) : Prop where
  value : r = count * 2 ^ quantum
  count_lt : count < 2 ^ (f.fraction + 1)
  quantum_ge : f.leastQuantum ≤ quantum
  quantum_lt : quantum < f.quantumBound

theorem infinityCode_eq (f : Format) : f.infinityCode = (2 ^ f.exponent - 1) * 2 ^ f.fraction := rfl

/-- A code is a number of steps of the unit above the least one, and a count. Only in the least unit
may the count be too small for a leading bit. -/
theorem magnitude_code {f : Format} {steps count : Nat} (hcount : count < 2 ^ (f.fraction + 1))
    (hleading : steps = 0 ∨ 2 ^ f.fraction ≤ count) :
    f.magnitude (steps * 2 ^ f.fraction + count) = (count, f.leastQuantum + steps) := by
  have hpow : 0 < 2 ^ f.fraction := Nat.two_pow_pos _
  unfold magnitude
  simp only [Nat.pow_eq]
  cases Nat.lt_or_ge count (2 ^ f.fraction) with
  | inl hlt =>
    have hsteps : steps = 0 := hleading.resolve_right (Nat.not_le.mpr hlt)
    rw [hsteps, zero_mul, zero_add, Nat.div_eq_of_lt hlt, Nat.mod_eq_of_lt hlt]
    simp
  | inr hge =>
    obtain ⟨low, rfl⟩ := Nat.exists_eq_add_of_le hge
    have hlow : low < 2 ^ f.fraction := by
      rw [Nat.pow_succ] at hcount
      omega
    have hcode : steps * 2 ^ f.fraction + (2 ^ f.fraction + low)
        = low + 2 ^ f.fraction * (steps + 1) := by ring
    rw [hcode, Nat.add_mul_div_left _ _ hpow, Nat.add_mul_mod_self_left, Nat.div_eq_of_lt hlow,
      Nat.mod_eq_of_lt hlow]
    simp

/-- A finite code stands for a fraction that the format can write. -/
theorem magnitude_writes {f : Format} (hexponent : 2 ≤ f.exponent) {code : Nat}
    (h : code < f.infinityCode) :
    f.Writes ((f.magnitude code).1 * 2 ^ (f.magnitude code).2) (f.magnitude code).1
      (f.magnitude code).2 := by
  have hpow : 0 < 2 ^ f.fraction := Nat.two_pow_pos _
  have hfour : 2 ^ 2 ≤ 2 ^ f.exponent := Nat.pow_le_pow_right (by decide) hexponent
  have hlow := Nat.mod_lt code hpow
  have hfield : code / 2 ^ f.fraction < 2 ^ f.exponent - 1 := by
    rw [Nat.div_lt_iff_lt_mul hpow]
    exact h
  refine ⟨rfl, ?_, ?_, ?_⟩ <;> unfold magnitude <;>
    simp only [Nat.pow_eq, Nat.pow_succ, quantumBound_eq] <;>
    split <;> dsimp only <;> omega

/-- Scaled to the unit that rounding chooses, a fraction that the format can write is a whole count.
The unit is the least one unless the count has a leading bit. -/
theorem exists_rounded_count {f : Format} {num den count : Nat} {quantum : ℤ} (hnum : 0 < num)
    (hden : 0 < den) (h : f.Writes (num / den) count quantum) :
    let unit := max f.leastQuantum (binaryExponent num den - f.fraction)
    unit ≤ quantum ∧ ∃ rounded : Nat, (num / den : ℚ) = rounded * 2 ^ unit ∧
      rounded < 2 ^ (f.fraction + 1) ∧ (unit = f.leastQuantum ∨ 2 ^ f.fraction ≤ rounded) := by
  intro unit
  obtain ⟨hlow, hhigh⟩ := binaryExponent_spec hnum hden
  have hcount : (count : ℚ) < 2 ^ ((f.fraction : ℤ) + 1) := by exact_mod_cast h.count_lt
  have hunit : unit ≤ quantum := by
    refine max_le h.quantum_ge ?_
    have hlt : (2 : ℚ) ^ binaryExponent num den < 2 ^ ((f.fraction : ℤ) + 1 + quantum) := by
      calc (2 : ℚ) ^ binaryExponent num den ≤ count * 2 ^ quantum := h.value ▸ hlow
        _ < 2 ^ ((f.fraction : ℤ) + 1) * 2 ^ quantum :=
          mul_lt_mul_of_pos_right hcount (two_zpow_pos quantum)
        _ = 2 ^ ((f.fraction : ℤ) + 1 + quantum) := (zpow_add₀ (by norm_num) _ _).symm
    rw [zpow_lt_zpow_iff_right₀ (by norm_num)] at hlt
    omega
  have hvalue : (num / den : ℚ) = ((count * 2 ^ (quantum - unit).toNat : Nat) : ℚ) * 2 ^ unit := by
    have hpower : (2 : ℚ) ^ quantum = 2 ^ (quantum - unit).toNat * 2 ^ unit := by
      rw [← zpow_natCast, ← zpow_add₀ (by norm_num)]
      congr 1
      omega
    rw [h.value, hpower]
    push_cast
    ring
  refine ⟨hunit, _, hvalue, ?_, ?_⟩
  · have hlt : ((count * 2 ^ (quantum - unit).toNat : Nat) : ℚ) < 2 ^ ((f.fraction : ℤ) + 1) := by
      refine lt_of_mul_lt_mul_right ?_ (two_zpow_pos unit).le
      calc _ = (num / den : ℚ) := hvalue.symm
        _ < 2 ^ (binaryExponent num den + 1) := hhigh
        _ ≤ 2 ^ ((f.fraction : ℤ) + 1 + unit) := by
          refine zpow_le_zpow_right₀ (by norm_num) ?_
          have hle := le_max_right f.leastQuantum (binaryExponent num den - f.fraction)
          omega
        _ = 2 ^ ((f.fraction : ℤ) + 1) * 2 ^ unit := zpow_add₀ (by norm_num) _ _
    exact_mod_cast hlt
  · rcases max_choice f.leastQuantum (binaryExponent num den - f.fraction) with hmax | hmax
    · exact .inl hmax
    · right
      have hle : (2 : ℚ) ^ (f.fraction : ℤ) ≤ ((count * 2 ^ (quantum - unit).toNat : Nat) : ℚ) := by
        refine le_of_mul_le_mul_right ?_ (two_zpow_pos unit)
        calc (2 : ℚ) ^ (f.fraction : ℤ) * 2 ^ unit = 2 ^ binaryExponent num den := by
              rw [← zpow_add₀ (by norm_num)]
              congr 1
              omega
          _ ≤ num / den := hlow
          _ = _ := hvalue
      exact_mod_cast hle

/-- In a unit in which the fraction is a whole count, rounding does not change it. -/
theorem roundCode_eq {f : Format} {num den rounded : Nat} (hnum : 0 < num) (hden : 0 < den) :
    let unit := max f.leastQuantum (binaryExponent num den - f.fraction)
    (num / den : ℚ) = rounded * 2 ^ unit →
      f.roundCode num den
        = min ((unit - f.leastQuantum).toNat * 2 ^ f.fraction + rounded) f.infinityCode := by
  intro unit hvalue
  have hden' : (den : ℚ) ≠ 0 := by exact_mod_cast hden.ne'
  have hexact : num * 2 ^ (-unit).toNat = rounded * (den * 2 ^ unit.toNat) := by
    have hcross : (num : ℚ) * (2 ^ (-unit).toNat : Nat)
        = rounded * (den * (2 ^ unit.toNat : Nat)) := by
      rw [two_zpow_eq_div] at hvalue
      field_simp at hvalue
      rw [hvalue]
      ring
    exact_mod_cast hcross
  rw [roundCode, if_neg hnum.ne']
  dsimp only
  rw [Nat.pow_eq, Nat.pow_eq, Nat.pow_eq, hexact,
    roundHalfEven_mul (Nat.mul_pos hden (Nat.two_pow_pos _))]

/-- The code of a fraction that the format can write stands for that fraction. -/
theorem magnitude_roundCode {f : Format} {num den count : Nat} {quantum : ℤ} (hden : 0 < den)
    (h : f.Writes (num / den) count quantum) :
    f.roundCode num den < f.infinityCode ∧
      ((f.magnitude (f.roundCode num den)).1 : ℚ) * 2 ^ (f.magnitude (f.roundCode num den)).2
        = num / den := by
  have hpow : 0 < 2 ^ f.fraction := Nat.two_pow_pos _
  have hroom := f.quantumBound_eq
  have hlt := h.quantum_lt
  have hge := h.quantum_ge
  rcases Nat.eq_zero_or_pos num with rfl | hnum
  · have hcode : f.roundCode 0 den = 0 * 2 ^ f.fraction + 0 := by simp [roundCode]
    rw [hcode, magnitude_code (Nat.two_pow_pos _) (.inl rfl), infinityCode_eq]
    refine ⟨?_, by simp⟩
    rw [zero_mul]
    exact Nat.mul_pos (by omega) hpow
  · obtain ⟨hunit, rounded, hvalue, hbits, hleading⟩ := exists_rounded_count hnum hden h
    have hcode := roundCode_eq hnum hden hvalue
    set unit := max f.leastQuantum (binaryExponent num den - f.fraction)
    have hleast : f.leastQuantum ≤ unit := le_max_left _ _
    have hfinite : (unit - f.leastQuantum).toNat * 2 ^ f.fraction + rounded < f.infinityCode := by
      calc (unit - f.leastQuantum).toNat * 2 ^ f.fraction + rounded
          < (unit - f.leastQuantum).toNat * 2 ^ f.fraction + 2 ^ (f.fraction + 1) :=
            Nat.add_lt_add_left hbits _
        _ = ((unit - f.leastQuantum).toNat + 2) * 2 ^ f.fraction := by ring
        _ ≤ (2 ^ f.exponent - 1) * 2 ^ f.fraction := Nat.mul_le_mul_right _ (by omega)
        _ = f.infinityCode := (infinityCode_eq f).symm
    rw [hcode, min_eq_left hfinite.le, magnitude_code hbits (by omega)]
    refine ⟨hfinite, ?_⟩
    dsimp only
    rw [hvalue]
    congr 2
    omega

end Format

/-! ## The values of numbers -/

/-- The fraction with a sign put to it. -/
def signed (negative : Bool) (r : ℚ) : ℚ := if negative then -r else r

theorem signed_mul (s t : Bool) (a b : ℚ) : signed s a * signed t b = signed (s != t) (a * b) := by
  cases s <;> cases t <;> simp [signed]

theorem abs_signed (negative : Bool) (r : ℚ) : |signed negative r| = |r| := by
  cases negative <;> simp [signed]

theorem signed_abs (r : ℚ) : signed (decide (r < 0)) |r| = r := by
  rcases lt_or_ge r 0 with hneg | hpos
  · rw [signed, decide_eq_true hneg, if_pos rfl, abs_of_neg hneg, neg_neg]
  · rw [signed, decide_eq_false (not_lt.mpr hpos), if_neg Bool.false_ne_true, abs_of_nonneg hpos]

namespace Datum

/-- The fraction that a datum stands for, if it does. -/
def value? : Datum → Option ℚ
  | .finite negative count quantum => some (signed negative (count * 2 ^ quantum))
  | _ => none

theorem exists_finite {d : Datum} {r : ℚ} (h : d.value? = some r) :
    ∃ (negative : Bool) (count : Nat) (quantum : ℤ), d = .finite negative count quantum ∧
      r = signed negative (count * 2 ^ quantum) := by
  cases d with
  | finite negative count quantum => exact ⟨negative, count, quantum, rfl, (Option.some.inj h).symm⟩
  | infinite negative => cases h
  | notANumber negative => cases h

theorem value?_mul {d e : Datum} {r t : ℚ} (hd : d.value? = some r) (he : e.value? = some t) :
    (d.mul e).value? = some (r * t) := by
  obtain ⟨s, a, p, rfl, rfl⟩ := exists_finite hd
  obtain ⟨s', b, q, rfl, rfl⟩ := exists_finite he
  rw [mul, value?, signed_mul, zpow_add₀ two_ne_zero]
  push_cast
  congr 2
  ring

end Datum

namespace Binary

variable {f g : Format}

/-- The fraction that a number stands for, if it does. -/
def value? (x : Binary f) : Option ℚ := x.datum.value?

theorem infinityCode_lt (f : Format) : f.infinityCode < 2 ^ (f.fraction + f.exponent) := by
  have hone : 0 < 2 ^ f.exponent := Nat.two_pow_pos _
  have hpow : 0 < 2 ^ f.fraction := Nat.two_pow_pos _
  rw [Format.infinityCode_eq, Nat.add_comm, Nat.pow_add]
  exact Nat.mul_lt_mul_of_pos_right (by omega) hpow

theorem datum_ofCode {code : Nat} (negative : Bool) (h : code < f.infinityCode) :
    (ofCode f negative code).datum
      = .finite negative (f.magnitude code).1 (f.magnitude code).2 := by
  have hlt := h.trans (infinityCode_lt f)
  have hbits : (ofCode f negative code).bits.toNat
      = code + if negative then 2 ^ (f.fraction + f.exponent) else 0 := by
    rw [ofCode, BitVec.toNat_ofNat, Nat.pow_eq, Format.width, Nat.pow_succ]
    refine Nat.mod_eq_of_lt ?_
    split <;> omega
  have hcode : (ofCode f negative code).code = code := by
    rw [Binary.code, hbits, Nat.pow_eq]
    cases negative with
    | false => exact Nat.mod_eq_of_lt hlt
    | true => exact (Nat.add_mod_right _ _).trans (Nat.mod_eq_of_lt hlt)
  have hsign : (ofCode f negative code).isNegative = negative := by
    rw [isNegative, BitVec.msb_eq_decide, hbits, Format.width, Nat.add_sub_cancel]
    cases negative with
    | false => simpa using hlt
    | true => simp
  rw [datum, hcode, if_pos h, hsign]

/-- A finite number stands for a fraction that its format can write. -/
theorem exists_writes {x : Binary f} {r : ℚ} (hexponent : 2 ≤ f.exponent)
    (h : x.value? = some r) : ∃ (count : Nat) (quantum : ℤ), f.Writes |r| count quantum := by
  obtain ⟨negative, count, quantum, hdatum, rfl⟩ := Datum.exists_finite h
  have hfinite : x.code < f.infinityCode := by
    by_contra hcode
    rw [datum, if_neg hcode] at hdatum
    split at hdatum <;> cases hdatum
  rw [datum, if_pos hfinite] at hdatum
  cases hdatum
  rw [abs_signed, abs_of_nonneg (scaled_nonneg _ _)]
  exact ⟨_, _, Format.magnitude_writes hexponent hfinite⟩

/-- The number nearest to a fraction that the format can write stands for it. -/
theorem value?_round {num den count : Nat} {quantum : ℤ} (hden : 0 < den)
    (h : f.Writes (num / den) count quantum) (negative : Bool) :
    (round f negative num den).value? = some (signed negative (num / den)) := by
  obtain ⟨hfinite, hvalue⟩ := Format.magnitude_roundCode hden h
  rw [value?, round, datum_ofCode negative hfinite, Datum.value?, hvalue]

theorem value?_ofDatum {d : Datum} {r : ℚ} {count : Nat} {quantum : ℤ} (hd : d.value? = some r)
    (h : f.Writes |r| count quantum) : (ofDatum f d).value? = some r := by
  obtain ⟨negative, num, exponent, rfl, rfl⟩ := Datum.exists_finite hd
  rw [abs_signed, abs_of_nonneg (scaled_nonneg _ _),
    ← fractionOf_value] at h
  rw [← fractionOf_value]
  exact value?_round (fractionOf_den_pos num exponent) h negative

theorem value?_convert {x : Binary f} {r : ℚ} {count : Nat} {quantum : ℤ} (hx : x.value? = some r)
    (h : g.Writes |r| count quantum) : (x.convert g).value? = some r :=
  value?_ofDatum hx h

theorem value?_mul {x y : Binary f} {r t : ℚ} {count : Nat} {quantum : ℤ}
    (hx : x.value? = some r) (hy : y.value? = some t) (h : f.Writes |r * t| count quantum) :
    (x * y).value? = some (r * t) :=
  value?_ofDatum (Datum.value?_mul hx hy) h

/-- The number nearest to a fraction. -/
def nearest (f : Format) (r : ℚ) : Binary f := round f (decide (r < 0)) r.num.natAbs r.den

theorem value?_nearest {r : ℚ} {count : Nat} {quantum : ℤ} (h : f.Writes |r| count quantum) :
    (nearest f r).value? = some r := by
  have hratio : (r.num.natAbs / r.den : ℚ) = |r| := by
    rw [Nat.cast_natAbs, Int.cast_abs, ← Nat.abs_cast r.den, ← abs_div, Rat.num_div_den]
  rw [← hratio] at h
  rw [nearest, value?_round r.den_pos h, hratio, signed_abs]

theorem ofInt_eq_nearest (n : ℤ) : ofInt f n = nearest f n := by
  rw [ofInt, nearest, Rat.num_intCast, Rat.den_intCast]
  congr 1
  exact decide_eq_decide.mpr Int.cast_lt_zero.symm

theorem value?_ofInt {n : ℤ} {count : Nat} {quantum : ℤ} (h : f.Writes |(n : ℚ)| count quantum) :
    (ofInt f n).value? = some (n : ℚ) := by
  rw [ofInt_eq_nearest]
  exact value?_nearest h

end Binary

/-- A count of few bits over a power of two that is not too great needs no rounding in 64 bits. -/
theorem double_writes {r : ℚ} (num shift : Nat) (hr : r = num / 2 ^ shift) (hnum : num < 2 ^ 53)
    (hshift : shift ≤ 1074) : double.Writes |r| num (-(shift : ℤ)) where
  value := by
    rw [hr, abs_of_nonneg (by positivity), zpow_neg, zpow_natCast, div_eq_mul_inv]
  count_lt := hnum
  quantum_ge := by
    have hleast : double.leastQuantum = -1074 := by decide
    omega
  quantum_lt := by
    have hbound : double.quantumBound = 972 := by decide
    omega

/-! ## Words as fractions -/

theorem cast_size : ((UInt32.size : Nat) : ℚ) = 2 ^ 32 := by norm_num [UInt32.size]

theorem Binary.value?_ofWord (w : UInt32) :
    (Binary.ofWord w).value? = some ((w.toNat : ℚ) / 2 ^ 32) := by
  have hword := w.toNat_lt
  have hwrites : double.Writes (w.toNat / UInt32.size) w.toNat (-(32 : Nat)) := by
    rw [cast_size, ← abs_of_nonneg (by positivity : (0 : ℚ) ≤ w.toNat / 2 ^ 32)]
    exact double_writes _ _ rfl (by omega) (by decide)
  rw [ofWord, value?_round (by decide) hwrites, cast_size]
  rfl

theorem lt_ceilDiv_iff (n num : Nat) {den : Nat} (hden : 0 < den) :
    n < ceilDiv num den ↔ (n : ℚ) < num / den := by
  rw [lt_div_iff₀ (by exact_mod_cast hden), ← Nat.cast_mul, Nat.cast_lt, ceilDiv,
    Nat.lt_iff_add_one_le, Nat.le_div_iff_mul_le hden, Nat.succ_mul]
  omega

/-- A word is one of those below a datum if, as a fraction, it is less than the datum. -/
theorem Datum.lt_wordsBelow_iff {d : Datum} {r : ℚ} (h : d.value? = some r) (w : UInt32) :
    w.toNat < d.wordsBelow ↔ (w.toNat : ℚ) < r * 2 ^ 32 := by
  obtain ⟨negative, count, quantum, rfl, rfl⟩ := Datum.exists_finite h
  cases negative with
  | true =>
    have hnonpos : signed true (count * 2 ^ quantum) * 2 ^ 32 ≤ 0 := by
      refine mul_nonpos_of_nonpos_of_nonneg ?_ (by positivity)
      exact neg_nonpos.mpr (scaled_nonneg count quantum)
    exact iff_of_false (Nat.not_lt_zero _) (hnonpos.trans (Nat.cast_nonneg _)).not_gt
  | false =>
    have hscaled : signed false (count * 2 ^ quantum) * 2 ^ 32
        = (fractionOf count (quantum + 32)).1 / (fractionOf count (quantum + 32)).2 := by
      rw [fractionOf_value, zpow_add₀ two_ne_zero, signed, if_neg Bool.false_ne_true, mul_assoc]
      norm_num
    have hden := fractionOf_den_pos count (quantum + 32)
    rw [wordsBelow, hscaled, ← lt_ceilDiv_iff _ _ hden, lt_min_iff]
    exact and_iff_left w.toNat_lt

end Dungeon.Number

namespace Dungeon

/-- A finite probability holds for the words that, as fractions, are less than it. -/
theorem Draw.chance_run {p : Number.Double} {r : ℚ} (h : p.value? = some r)
    (s : Source) :
    (chance p).run s = (decide ((s.next.state.toNat : ℚ) < r * 2 ^ 32), s.next) := by
  rw [← decide_eq_decide.mpr (Number.Datum.lt_wordsBelow_iff h s.next.state)]
  rfl

/-- The fraction of the words below its threshold says all about a draw. -/
theorem Draw.below_eq_chance {p : Number.Double} {num den : Nat} (hden : 0 < den)
    (h : p.value? = some (num / den : ℚ)) :
    below (Number.ceilDiv (num * UInt32.size) den) = chance p := by
  funext s
  have hthreshold := Number.lt_ceilDiv_iff s.next.state.toNat (num * UInt32.size) hden
  rw [Nat.cast_mul, Number.cast_size, mul_div_right_comm] at hthreshold
  have hrun : (below (Number.ceilDiv (num * UInt32.size) den)).run s
      = (decide (s.next.state.toNat < Number.ceilDiv (num * UInt32.size) den), s.next) := rfl
  exact hrun.trans ((congrArg (·, s.next) (decide_eq_decide.mpr hthreshold)).trans
    (chance_run h s).symm)

end Dungeon
