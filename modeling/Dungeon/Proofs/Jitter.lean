import Dungeon.Populate
import Dungeon.Proofs.Rounding

/-!
# Counts without rounding

The mean of a jittered count is the density times the area over sixteen. For a density from 0 to 1
and the area of a map that may be drawn, every operation on the way to the count is exact: the
density has 24 bits and the area 18, so that their product, its part after the point and the word
drawn as a fraction all fit into 53. The whole part of the mean is certain, and the word decides on
the rest by a comparison that is strict. So a count is the mean less the word as a fraction, rounded
up, whether a word is drawn or not.

Results:
1. `jitteredCount_eq`: a count from the whole part of the mean and a probability.
2. `jitteredCount_run`: the count that a source gives, as one expression.
3. `jitteredCount_exact`: exact steps, the count with and without a draw, and its growth.
-/

namespace Dungeon

open Number

/-! ## Few bits -/

/-- A density from 0 to 1 is a count of 24 bits over a power of two. -/
theorem exists_density_fraction {density : Single} {d : ℚ} (hd : density.value? = some d)
    (h0 : 0 ≤ d) (h1 : d ≤ 1) :
    ∃ num shift : Nat, d = num / 2 ^ shift ∧ num < 2 ^ 24 ∧ shift ≤ 149 := by
  obtain ⟨count, quantum, hwrites⟩ := Binary.exists_writes (by decide) hd
  have hvalue := hwrites.value
  rw [abs_of_nonneg h0] at hvalue
  have hleast : single.leastQuantum = -149 := by decide
  have hquantum := hwrites.quantum_ge
  rcases Nat.eq_zero_or_pos count with rfl | hpos
  · exact ⟨0, 0, by simp [hvalue], by decide, by decide⟩
  · -- A positive count of a unit above one is more than one.
    have hunit : quantum ≤ 0 := by
      by_contra hlarge
      have htwo : (1 : ℚ) < 2 ^ quantum := one_lt_zpow₀ one_lt_two (not_le.mp hlarge)
      have hone : (1 : ℚ) ≤ count := by exact_mod_cast hpos
      nlinarith
    refine ⟨count, (-quantum).toNat, ?_, hwrites.count_lt, by omega⟩
    rw [hvalue, ← zpow_natCast, div_eq_mul_inv, ← zpow_neg]
    congr 2
    omega

theorem natCast_div_sub_floor (num den : Nat) :
    (num / den : ℚ) - ⌊(num / den : ℚ)⌋ = (num % den : Nat) / den := by
  rcases Nat.eq_zero_or_pos den with rfl | hden
  · simp
  · have hden' : (den : ℚ) ≠ 0 := by exact_mod_cast hden.ne'
    have hsplit : (num : ℚ) = den * (num / den : Nat) + (num % den : Nat) := by
      exact_mod_cast (Nat.div_add_mod num den).symm
    rw [Rat.floor_natCast_div_natCast, ← Int.natCast_div, Int.cast_natCast]
    nth_rewrite 1 [hsplit]
    field_simp
    ring

/-- A number less a part of one, rounded up, is more than its whole part if the part is less than the
rest. -/
theorem ceil_sub_eq {r part : ℚ} (h0 : 0 ≤ part) (h1 : part < 1) :
    ⌈r - part⌉ = if part < r - ⌊r⌋ then ⌊r⌋ + 1 else ⌊r⌋ := by
  have hlow := Int.floor_le r
  have hhigh := Int.lt_floor_add_one r
  split
  · rw [Int.ceil_eq_iff]
    push_cast
    constructor <;> linarith
  · rw [Int.ceil_eq_iff]
    constructor <;> linarith

/-- A count with a mean: the whole part of the mean, and one more with the probability of the rest.
Only a rest draws a word. -/
def countAround (mean : ℚ) : Draw ℤ :=
  if mean = ⌊mean⌋ then pure ⌊mean⌋
  else do
    let more ← Draw.chance (Binary.nearest double (mean - ⌊mean⌋))
    pure (⌊mean⌋ + if more then 1 else 0)

/-- A mean given as a fraction takes its whole part and its rest by division, if the rest needs no
rounding. -/
theorem countAround_div {num den : Nat} (hden : 0 < den)
    (hrest : (Binary.nearest double (num / den - ⌊(num / den : ℚ)⌋)).value?
      = some ((num / den : ℚ) - ⌊(num / den : ℚ)⌋)) :
    countAround (num / den)
      = if num % den = 0 then pure ((num / den : Nat) : ℤ)
        else Draw.below (ceilDiv (num % den * UInt32.size) den) >>= fun more =>
          pure ((num / den + if more then 1 else 0 : Nat) : ℤ) := by
  have hden' : (den : ℚ) ≠ 0 := by exact_mod_cast hden.ne'
  rw [natCast_div_sub_floor] at hrest
  have hwhole : (num / den : ℚ) = ⌊(num / den : ℚ)⌋ ↔ num % den = 0 := by
    rw [← sub_eq_zero, natCast_div_sub_floor, div_eq_zero_iff, or_iff_left hden', Nat.cast_eq_zero]
  rw [countAround, natCast_div_sub_floor, Draw.below_eq_chance hden hrest]
  simp only [hwhole]
  rw [Rat.floor_natCast_div_natCast]
  push_cast
  rfl

/-! ## Exact steps -/

/-- Every number in 64 bits on the way to a count stands for the exact result of its step. -/
structure ExactSteps (density : Single) (d : ℚ) (area : ℤ) : Prop where
  density_exact : (density.convert double).value? = some d
  area_exact : (Binary.ofInt double area).value? = some (area : ℚ)
  product_exact : (density.convert double * Binary.ofInt double area).value? = some (d * area)
  mean_exact : (Binary.nearest double (d * area / 16)).value? = some (d * area / 16)
  whole_exact : (Binary.nearest double ⌊d * area / 16⌋).value? = some (⌊d * area / 16⌋ : ℚ)
  rest_exact : (Binary.nearest double (d * area / 16 - ⌊d * area / 16⌋)).value?
    = some (d * area / 16 - ⌊d * area / 16⌋)
  word_exact : ∀ word : UInt32, (Binary.ofWord word).value? = some ((word.toNat : ℚ) / 2 ^ 32)

section

variable {density : Single} {d : ℚ} {area : ℤ} (hd : density.value? = some d) (h0 : 0 ≤ d)
  (h1 : d ≤ 1) (harea : 0 ≤ area) (harea' : area ≤ 2 ^ 18)

include hd h0 h1 harea harea'

theorem exactSteps : ExactSteps density d area := by
  obtain ⟨num, shift, rfl, hnum, hshift⟩ := exists_density_fraction hd h0 h1
  obtain ⟨tiles, rfl⟩ := Int.eq_ofNat_of_zero_le harea
  have htiles : tiles ≤ 2 ^ 18 := by omega
  have hbits : num * tiles < 2 ^ 53 := by
    calc num * tiles ≤ 2 ^ 24 * 2 ^ 18 := Nat.mul_le_mul hnum.le htiles
      _ < 2 ^ 53 := by decide
  have hproduct : (num / 2 ^ shift * (tiles : ℤ) : ℚ) = (num * tiles : Nat) / 2 ^ shift := by
    push_cast
    ring
  have hmean : (num / 2 ^ shift * (tiles : ℤ) / 16 : ℚ)
      = (num * tiles : Nat) / (2 ^ (shift + 4) : Nat) := by
    rw [hproduct, div_div, pow_add]
    norm_num
  have hdensity := Binary.value?_convert hd (double_writes num shift rfl (by omega) (by omega))
  have harea64 : (Binary.ofInt double tiles).value? = some ((tiles : ℤ) : ℚ) :=
    Binary.value?_ofInt (double_writes tiles 0 (by simp) (by omega) (by decide))
  constructor
  case density_exact => exact hdensity
  case area_exact => exact harea64
  case product_exact =>
    exact Binary.value?_mul hdensity harea64 (double_writes _ _ hproduct hbits (by omega))
  case mean_exact =>
    refine Binary.value?_nearest (double_writes _ (shift + 4) ?_ hbits (by omega))
    exact_mod_cast hmean
  case whole_exact =>
    rw [hmean, Rat.floor_natCast_div_natCast, ← Int.natCast_div]
    refine Binary.value?_nearest (double_writes (num * tiles / 2 ^ (shift + 4)) 0 ?_
      ((Nat.div_le_self _ _).trans_lt hbits) (by decide))
    rw [Int.cast_natCast, pow_zero, div_one]
  case rest_exact =>
    rw [hmean, natCast_div_sub_floor]
    refine Binary.value?_nearest (double_writes (num * tiles % 2 ^ (shift + 4)) (shift + 4) ?_
      ((Nat.mod_le _ _).trans_lt hbits) (by omega))
    push_cast
    rfl
  case word_exact => exact Binary.value?_ofWord

/-- A count is the whole part of the mean, and one more with the probability of the rest. -/
theorem jitteredCount_eq : jitteredCount density area = countAround (d * area / 16) := by
  have hsteps := exactSteps hd h0 h1 harea harea'
  obtain ⟨negative, count, quantum, hdatum, hvalue⟩ := Datum.exists_finite hsteps.product_exact
  have hmagnitude := scaled_nonneg count quantum
  unfold jitteredCount
  dsimp only
  rw [hdatum]
  cases negative with
  | true =>
    -- The product of a negative zero is zero as well.
    have hzero : d * area / 16 = 0 := by
      have hnonneg : 0 ≤ d * area := mul_nonneg h0 (by exact_mod_cast harea)
      have hnonpos : d * area = -(count * 2 ^ quantum) := hvalue
      linarith
    rw [hzero, countAround, Int.floor_zero, if_pos Int.cast_zero.symm]
  | false =>
    obtain ⟨num, den, hfraction⟩ : ∃ num den, fractionOf count (quantum - 4) = (num, den) :=
      ⟨_, _, rfl⟩
    have hden : 0 < den := by simpa only [hfraction] using fractionOf_den_pos count (quantum - 4)
    have hmean : d * area / 16 = num / den := by
      have hquotient := fractionOf_value count (quantum - 4)
      rw [hfraction, zpow_sub₀ two_ne_zero] at hquotient
      rw [hvalue, signed, if_neg Bool.false_ne_true, hquotient]
      norm_num
      ring
    have hrest := hsteps.rest_exact
    rw [hmean] at hrest ⊢
    dsimp only
    rw [hfraction, countAround_div hden hrest]

/-- The count that a source gives. -/
theorem jitteredCount_run (s : Source) :
    (jitteredCount density area).run s
      = if d * area / 16 = ⌊d * area / 16⌋ then (⌊d * area / 16⌋, s)
        else (if (s.next.state.toNat : ℚ) < (d * area / 16 - ⌊d * area / 16⌋) * 2 ^ 32
            then ⌊d * area / 16⌋ + 1 else ⌊d * area / 16⌋, s.next) := by
  rw [jitteredCount_eq hd h0 h1 harea harea', countAround]
  split
  · rfl
  · rw [StateT.run_bind, Draw.chance_run (exactSteps hd h0 h1 harea harea').rest_exact s]
    split
    · next hmore =>
      rw [decide_eq_true hmore]
      rfl
    · next hless =>
      rw [decide_eq_false hless]
      exact Prod.ext (add_zero _) rfl

/-- With a draw or without one, a count is the mean less a word as a fraction, rounded up. -/
theorem jitteredCount_eq_ceil (s : Source) :
    ((jitteredCount density area).run s).1 = ⌈d * area / 16 - s.next.state.toNat / 2 ^ 32⌉ := by
  have hword : (s.next.state.toNat / 2 ^ 32 : ℚ) < 1 := by
    rw [div_lt_one (by positivity)]
    exact_mod_cast s.next.state.toNat_lt
  rw [jitteredCount_run hd h0 h1 harea harea', ceil_sub_eq (by positivity) hword]
  simp only [div_lt_iff₀ (by positivity : (0 : ℚ) < 2 ^ 32)]
  split
  · next hwhole =>
    -- There is no rest, so no word lies below it.
    rw [← hwhole, sub_self, zero_mul, if_neg (Nat.cast_nonneg _).not_gt]
  · rfl

end

/-- For a density from 0 to 1 and up to `2 ^ 18` tiles no step of a count rounds. A whole mean is the
count, and draws nothing. Any other mean draws one word, and the count is the whole part, or one more
if the word lies below the rest of the `2 ^ 32` words. From the same source a greater density and a
greater area give no smaller count, also where only one of the two counts draws a word. -/
theorem jitteredCount_exact {density : Single} {d : ℚ} {area : ℤ} (hd : density.value? = some d)
    (h0 : 0 ≤ d) (h1 : d ≤ 1) (harea : 0 ≤ area) (harea' : area ≤ 2 ^ 18) :
    let mean := d * area / 16
    ExactSteps density d area ∧
      (∀ (s : Source) (n : ℤ), mean = n → (jitteredCount density area).run s = (n, s)) ∧
      ((∀ n : ℤ, mean ≠ n) → ∀ s : Source, (jitteredCount density area).run s
        = (if (s.next.state.toNat : ℚ) < (mean - ⌊mean⌋) * 2 ^ 32 then ⌊mean⌋ + 1 else ⌊mean⌋,
            s.next)) ∧
      ∀ {density' : Single} {d' : ℚ} {area' : ℤ}, density'.value? = some d' → d ≤ d' → d' ≤ 1 →
        area ≤ area' → area' ≤ 2 ^ 18 → ∀ s : Source,
          ((jitteredCount density area).run s).1 ≤ ((jitteredCount density' area').run s).1 := by
  refine ⟨exactSteps hd h0 h1 harea harea', ?whole, ?rest, ?grows⟩
  case whole =>
    intro s n hn
    rw [jitteredCount_run hd h0 h1 harea harea', hn, Int.floor_intCast, if_pos rfl]
  case rest =>
    intro hnone s
    rw [jitteredCount_run hd h0 h1 harea harea', if_neg (hnone _)]
  case grows =>
    intro density' d' area' hd' hgrow h1' hgrow' harea'' s
    rw [jitteredCount_eq_ceil hd h0 h1 harea harea',
      jitteredCount_eq_ceil hd' (h0.trans hgrow) h1' (harea.trans hgrow') harea'']
    have hmean : d * area ≤ d' * area' :=
      mul_le_mul hgrow (by exact_mod_cast hgrow') (by exact_mod_cast harea) (h0.trans hgrow)
    exact Int.ceil_mono (by linarith)

/-- Thirty hundredths, as near as 32 bits come, on 20 tiles: the first word after seed 1 is below the
rest, and twice the area gives no less. -/
theorem jitteredCount_exact_thirty :
    (Binary.percent 30).value? = some (5033165 / 2 ^ 24) ∧
      ExactSteps (Binary.percent 30) (5033165 / 2 ^ 24) 20 ∧
      (jitteredCount (Binary.percent 30) 20).run (Source.ofSeed 1) = (1, (Source.ofSeed 1).next) ∧
      ((jitteredCount (Binary.percent 30) 20).run (Source.ofSeed 1)).1
        ≤ ((jitteredCount (Binary.percent 30) 40).run (Source.ofSeed 1)).1 := by
  have hdatum : (Binary.percent 30).datum = .finite false 10066330 (-25) := by decide +kernel
  have hd : (Binary.percent 30).value? = some (5033165 / 2 ^ 24) := by
    rw [Binary.value?, hdatum, Datum.value?, signed]
    norm_num
  have hword : (Source.ofSeed 1).next.state.toNat = 270369 := by decide
  have hfloor : ⌊(5033165 / 2 ^ 24 * (20 : ℤ) / 16 : ℚ)⌋ = 0 := by
    rw [Int.floor_eq_iff]
    norm_num
  obtain ⟨hsteps, -, hrest, hgrows⟩ :=
    @jitteredCount_exact _ _ 20 hd (by norm_num) (by norm_num) (by decide) (by decide)
  refine ⟨hd, hsteps, ?_, hgrows hd le_rfl (by norm_num) (by decide) (by decide) _⟩
  rw [hrest, hfloor, hword, if_pos (by norm_num)]
  · rfl
  · intro n hn
    have hpos : (0 : ℚ) < n := by rw [← hn]; norm_num
    have hlt : (n : ℚ) < 1 := by rw [← hn]; norm_num
    norm_cast at hpos hlt
    omega

end Dungeon
