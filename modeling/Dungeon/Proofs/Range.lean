import Mathlib
import Dungeon.Proofs.Draw
import Dungeon.Text.Decimal

/-!
# Numbers drawn from a range

A range of 32-bit numbers, other than that of all of them, has a size that fits in a word. The
number drawn is the least one and the remainder of the word by the size. Counting through all words
goes through the range again and again and breaks off in the middle, so the numbers up to this point
come out once more than the others.

Results:
1. `Draw.rangeFits`: nothing that is computed on the way is too large.
2. `Draw.ncard_words`: how many words stand for a number.
3. `Draw.between_even`: what is drawn from a range, and how evenly.
-/

namespace Dungeon.Draw

/-- The number has room in 64 bits with a sign. -/
def Fits64 (n : ℤ) : Prop := -2 ^ 63 ≤ n ∧ n < 2 ^ 63

theorem fits64_of_fits32 {n : ℤ} (h : Text.Fits32 n) : Fits64 n := by
  unfold Text.Fits32 at h
  unfold Fits64
  omega

/-- The number in a range that a word stands for. -/
def inRange (lo hi : ℤ) (w : UInt32) : ℤ := lo + ((w % rangeSize lo hi).toNat : ℤ)

/-- What is computed for a range has room: its width and its size in 64 bits, the size also in a
word, in which it is not zero, and the sum of the least number and a remainder in 32 bits. -/
structure RangeFits (lo hi : ℤ) : Prop where
  width : Fits64 (hi - lo)
  size : Fits64 (hi - lo + 1)
  word : ((rangeSize lo hi).toNat : ℤ) = hi - lo + 1
  pos : 0 < (rangeSize lo hi).toNat
  sum : ∀ w, Fits64 (inRange lo hi w) ∧ Text.Fits32 (inRange lo hi w)

variable {lo hi : ℤ}

theorem inRange_mem (h : lo ≤ hi) (w : UInt32) : lo ≤ inRange lo hi w ∧ inRange lo hi w ≤ hi := by
  have hle := word_mod_rangeSize_le h w
  unfold inRange
  omega

theorem toNat_rangeSize_of_lt (h : lo < hi) (hsize : hi - lo + 1 < 2 ^ 32) :
    ((rangeSize lo hi).toNat : ℤ) = hi - lo + 1 := by
  rw [toNat_rangeSize]
  exact Int.emod_eq_of_lt (by omega) hsize

theorem rangeFits (hlo : Text.Fits32 lo) (hhi : Text.Fits32 hi) (h : lo < hi)
    (hsize : hi - lo + 1 < 2 ^ 32) : RangeFits lo hi := by
  have hword := toNat_rangeSize_of_lt h hsize
  unfold Text.Fits32 at hlo hhi
  constructor
  case width => unfold Fits64; omega
  case size => unfold Fits64; omega
  case word => exact hword
  case pos => omega
  case sum =>
    intro w
    have hmem := inRange_mem h.le w
    have hfits : Text.Fits32 (inRange lo hi w) := by
      unfold Text.Fits32
      omega
    exact ⟨fits64_of_fits32 hfits, hfits⟩

/-! ## How many words -/

/-- The words with a remainder are counted like the numbers below `2 ^ 32` with this remainder. -/
theorem ncard_words_mod {size k : Nat} (hk : k < size) :
    {w : UInt32 | w.toNat % size = k}.ncard =
      2 ^ 32 / size + if k < 2 ^ 32 % size then 1 else 0 := by
  have hmod : k % size = k := Nat.mod_eq_of_lt hk
  have himage : UInt32.toNat '' {w | w.toNat % size = k} =
      ((Finset.range (2 ^ 32)).filter (· ≡ k [MOD size]) : Finset Nat) := by
    ext n
    simp only [Set.mem_image, Set.mem_ofPred_eq, Finset.coe_filter, Finset.mem_range, Nat.ModEq,
      hmod]
    constructor
    · rintro ⟨w, hw, rfl⟩
      exact ⟨w.toNat_lt, hw⟩
    · rintro ⟨hlt, hn⟩
      have hword : (UInt32.ofNat n).toNat = n := UInt32.toNat_ofNat_of_lt' hlt
      exact ⟨UInt32.ofNat n, by rw [hword, hn], hword⟩
  have hinj : Function.Injective UInt32.toNat := fun _ _ => UInt32.toNat_inj.mp
  rw [← Set.ncard_image_of_injective _ hinj, himage, Set.ncard_coe_finset,
    ← Nat.count_eq_card_filter_range, Nat.count_modEq_card _ (Nat.zero_lt_of_lt hk), hmod]

/-- Every number of a range has as many words as the size of the range goes into all of them, and
one more if it is among the first ones, which the rest of the words goes through again. -/
theorem ncard_words (h : lo < hi) (hsize : hi - lo + 1 < 2 ^ 32) {n : ℤ} (hlo : lo ≤ n)
    (hhi : n ≤ hi) :
    {w | inRange lo hi w = n}.ncard = 2 ^ 32 / (hi - lo + 1).toNat +
      if (n - lo).toNat < 2 ^ 32 % (hi - lo + 1).toNat then 1 else 0 := by
  have hword : (rangeSize lo hi).toNat = (hi - lo + 1).toNat := by
    have hexact := toNat_rangeSize_of_lt h hsize
    omega
  have hwords : {w | inRange lo hi w = n} =
      {w | w.toNat % (hi - lo + 1).toNat = (n - lo).toNat} := by
    ext w
    simp only [Set.mem_ofPred_eq, inRange, UInt32.toNat_mod, hword]
    omega
  rw [hwords, ncard_words_mod (by omega)]

/-! ## Draws -/

theorem size_lt_of_ne (hlo : Text.Fits32 lo) (hhi : Text.Fits32 hi)
    (hall : ¬ (lo = -2 ^ 31 ∧ hi = 2 ^ 31 - 1)) : hi - lo + 1 < 2 ^ 32 := by
  unfold Text.Fits32 at hlo hhi
  omega

/-- A range of 32-bit numbers with at most one member gives its least number and takes no word. Any
other range, unless it is that of all of them, takes one word, and this alone decides on the number,
which lies in the range. All that is computed has room. Over all words, the numbers come out equally
often, except that the first ones, as many as the size of the range leaves over of all words, come
out once more. -/
theorem between_even (hlo : Text.Fits32 lo) (hhi : Text.Fits32 hi)
    (hall : ¬ (lo = -2 ^ 31 ∧ hi = 2 ^ 31 - 1)) (s : Source) :
    (hi ≤ lo → (between lo hi).run s = (lo, s)) ∧
      (lo < hi →
        RangeFits lo hi ∧
          (between lo hi).run s = (inRange lo hi (word.run s).1, s.next) ∧
          (∀ w, lo ≤ inRange lo hi w ∧ inRange lo hi w ≤ hi) ∧
          ∀ n, lo ≤ n → n ≤ hi →
            let size := (hi - lo + 1).toNat
            {w | inRange lo hi w = n}.ncard =
              2 ^ 32 / size + if (n - lo).toNat < 2 ^ 32 % size then 1 else 0) := by
  have hsize := size_lt_of_ne hlo hhi hall
  refine ⟨fun h => ?_, fun h => ⟨rangeFits hlo hhi h hsize, between_run h s, inRange_mem h.le,
    fun n => ncard_words h hsize⟩⟩
  rw [between, if_pos h]
  rfl

/-- The range of all 32-bit numbers but the greatest: its size is the greatest word, so only the
least number comes from two words. The other way round it is no range, and nothing is drawn. -/
theorem between_even_widest :
    let lo : ℤ := -2 ^ 31
    let hi : ℤ := 2 ^ 31 - 2
    (Text.Fits32 lo ∧ Text.Fits32 hi ∧ ¬ (lo = -2 ^ 31 ∧ hi = 2 ^ 31 - 1) ∧ lo < hi) ∧
      ((rangeSize lo hi).toNat : ℤ) = 2 ^ 32 - 1 ∧
      {w | inRange lo hi w = lo}.ncard = 2 ∧ {w | inRange lo hi w = hi}.ncard = 1 ∧
      (between hi lo).run (Source.ofSeed 0) = (hi, Source.ofSeed 0) := by
  intro lo hi
  have hlo : Text.Fits32 lo := by decide
  have hhi : Text.Fits32 hi := by decide
  have hall : ¬ (lo = -2 ^ 31 ∧ hi = 2 ^ 31 - 1) := by decide
  have hlt : lo < hi := by decide
  obtain ⟨hfits, -, -, hwords⟩ := (between_even hlo hhi hall (Source.ofSeed 0)).2 hlt
  obtain ⟨hnone, -⟩ := between_even hhi hlo (by decide) (Source.ofSeed 0)
  exact ⟨⟨hlo, hhi, hall, hlt⟩, hfits.word, (hwords lo le_rfl hlt.le).trans (by decide),
    (hwords hi hlt.le le_rfl).trans (by decide), hnone hlt.le⟩

end Dungeon.Draw
