import Dungeon.Encounter
import Dungeon.Layout.Cavern
import Dungeon.Proofs.Powers
import Dungeon.Text.Decimal

/-!
# Hashes lose nothing

Scattering the bits of a word is a chain of steps that can each be undone. A word folded down onto
itself by some bits is known from its highest bits on, and multiplying by a factor is undone by the
inverse of that factor. So different words are scattered to different words, and what is mixed in
last can be told apart: the rooms of a map have different hashes for one purpose, and the retries of
a cave start from different seeds.

Results:
1. `Hash.foldDown_bijective`, `Hash.mul_bijective`, `Hash.mix_bijective`: each step can be undone, and
   so can their chain.
2. `Hash.combine_injective`, `Hash.combine₃_injective`: the word mixed in last is not lost.
3. `Map.roomHash_inj`, `Cavern.seed_sourceOf_inj`: rooms and retries are told apart.
4. `Hash.mix_lossless`: all of this together.
-/

namespace Dungeon

namespace Hash

/-! ## Steps -/

theorem foldDown_xor (n x y : UInt32) :
    foldDown n (x ^^^ y) = foldDown n x ^^^ foldDown n y := by
  unfold foldDown
  rw [UInt32.shiftRight_xor, Source.xor_xor_swap]

/-- Only zero is the same as itself moved down. -/
theorem eq_zero_of_foldDown {n x : UInt32} (hn : 0 < n.toNat % 32) (h : foldDown n x = 0) :
    x = 0 := by
  have hmoved : x = x >>> n := UInt32.xor_eq_zero_iff.mp h
  have hquotient : x.toNat = x.toNat / 2 ^ (n.toNat % 32) := by
    conv_lhs => rw [hmoved]
    rw [UInt32.toNat_shiftRight, Nat.shiftRight_eq_div_pow]
  have hpow : 1 < 2 ^ (n.toNat % 32) := Nat.one_lt_two_pow hn.ne'
  refine UInt32.toNat_inj.mp ?_
  by_contra hne
  exact (Nat.div_lt_self (Nat.pos_of_ne_zero hne) hpow).ne hquotient.symm

theorem foldDown_injective {n : UInt32} (hn : 0 < n.toNat % 32) :
    Function.Injective (foldDown n) := by
  intro x y h
  have hxor : foldDown n (x ^^^ y) = 0 := by rw [foldDown_xor, h, UInt32.xor_self]
  exact UInt32.xor_eq_zero_iff.mp (eq_zero_of_foldDown hn hxor)

theorem foldDown_bijective {n : UInt32} (hn : 0 < n.toNat % 32) :
    Function.Bijective (foldDown n) :=
  Finite.injective_iff_bijective.mp (foldDown_injective hn)

/-- Multiplying is undone by the inverse of the factor. -/
theorem mul_bijective {factor inverse : UInt32} (h : factor * inverse = 1) :
    Function.Bijective (· * factor) := by
  refine Function.bijective_iff_has_inverse.mpr ⟨(· * inverse), fun x => ?_, fun x => ?_⟩
  · show x * factor * inverse = x
    rw [UInt32.mul_assoc, h, UInt32.mul_one]
  · show x * inverse * factor = x
    rw [UInt32.mul_assoc, UInt32.mul_comm inverse, h, UInt32.mul_one]

theorem mix_bijective : Function.Bijective mix := by
  have hlow : Function.Bijective (foldDown 16) := foldDown_bijective (by decide)
  have hmiddle : Function.Bijective (foldDown 15) := foldDown_bijective (by decide)
  have hfirst : Function.Bijective (· * (0x7feb352d : UInt32)) :=
    mul_bijective (by decide : (0x7feb352d : UInt32) * 0x1d69e2a5 = 1)
  have hsecond : Function.Bijective (· * (0x846ca68b : UInt32)) :=
    mul_bijective (by decide : (0x846ca68b : UInt32) * 0x43021123 = 1)
  exact hlow.comp (hsecond.comp (hmiddle.comp (hfirst.comp hlow)))

/-! ## Combinations -/

theorem combine_injective (a : UInt32) : Function.Injective (combine a) := by
  intro b b' h
  have hmixed := (UInt32.xor_right_inj a).mp (mix_bijective.injective h)
  rwa [UInt32.add_left_inj, UInt32.add_left_inj, UInt32.add_left_inj] at hmixed

theorem combine₃_injective (a b : UInt32) : Function.Injective (combine₃ a b) :=
  combine_injective (combine a b)

end Hash

/-! ## Rooms and retries -/

theorem toNat_ofInt (n : Int) : ((UInt32.ofInt n).toNat : Int) = n % 4294967296 := by
  rw [UInt32.ofInt, UInt32.toNat_ofNat', Int.natCast_emod,
    Int.toNat_of_nonneg (Int.emod_nonneg n (by decide))]
  exact Int.emod_emod_of_dvd n (dvd_refl _)

/-- Numbers that fit in 32 bits with a sign stay different as words. -/
theorem ofInt_injOn : Set.InjOn UInt32.ofInt {n | Text.Fits32 n} := by
  rintro m ⟨hm, hm'⟩ n ⟨hn, hn'⟩ h
  have hrest : m % 4294967296 = n % 4294967296 := by rw [← toNat_ofInt, h, toNat_ofInt]
  omega

theorem Map.roomHash_inj (m : Map) (purpose : String) {r s : Room} (hr : Text.Fits32 r.id)
    (hs : Text.Fits32 s.id) : m.roomHash purpose r = m.roomHash purpose s ↔ r.id = s.id := by
  unfold roomHash
  rw [(Hash.combine₃_injective m.seed (Hash.tag purpose)).eq_iff, ofInt_injOn.eq_iff hr hs]

theorem Cavern.seed_sourceOf_inj (start : Source) {k l : Nat} (hk : 0 < k ∧ k < UInt32.size)
    (hl : 0 < l ∧ l < UInt32.size) :
    (sourceOf start k).seed = (sourceOf start l).seed ↔ k = l := by
  have hretry : ∀ n, 0 < n → (sourceOf start n).seed =
      Hash.combine₃ start.seed (Hash.tag "CAVERN") (UInt32.ofNat n) := fun n hn =>
    congrArg Source.seed (if_neg hn.ne')
  rw [hretry k hk.1, hretry l hl.1, (Hash.combine₃_injective _ _).eq_iff, ← UInt32.toNat_inj,
    UInt32.toNat_ofNat_of_lt' hk.2, UInt32.toNat_ofNat_of_lt' hl.2]

/-- Scattering the bits of a word is a bijection, and combining loses nothing of the word mixed in
last. So rooms of one map have the same hash for a purpose only if they have the same id, and no two
retries of a cave start from the same seed. -/
theorem Hash.mix_lossless :
    Function.Bijective mix ∧
      (∀ a, Function.Injective (combine a)) ∧
      (∀ a b, Function.Injective (combine₃ a b)) ∧
      (∀ (m : Map) (purpose : String) (r s : Room), Text.Fits32 r.id → Text.Fits32 s.id →
        (m.roomHash purpose r = m.roomHash purpose s ↔ r.id = s.id)) ∧
      ∀ (start : Source) (k l : Nat), 0 < k ∧ k < UInt32.size → 0 < l ∧ l < UInt32.size →
        ((Cavern.sourceOf start k).seed = (Cavern.sourceOf start l).seed ↔ k = l) :=
  ⟨mix_bijective, combine_injective, combine₃_injective,
    fun m purpose _ _ => m.roomHash_inj purpose, fun start _ _ => Cavern.seed_sourceOf_inj start⟩

/-- The rooms with the least and the greatest id of 32 bits, and the first two retries. -/
theorem Hash.mix_lossless_farApart :
    ({} : Map).roomHash "ROOMDESC" (.ofRect (-2147483648) ⟨1, 1, 3, 3⟩) ≠
        ({} : Map).roomHash "ROOMDESC" (.ofRect 2147483647 ⟨5, 1, 3, 3⟩) ∧
      (Cavern.sourceOf (.ofSeed 7) 1).seed ≠ (Cavern.sourceOf (.ofSeed 7) 2).seed := by
  obtain ⟨_, _, _, hrooms, hretries⟩ := Hash.mix_lossless
  have hroom := hrooms {} "ROOMDESC" (.ofRect (-2147483648) ⟨1, 1, 3, 3⟩)
    (.ofRect 2147483647 ⟨5, 1, 3, 3⟩) (by decide) (by decide)
  have hretry := hretries (.ofSeed 7) 1 2 (by decide) (by decide)
  exact ⟨fun h => absurd (hroom.mp h) (by decide), fun h => absurd (hretry.mp h) (by decide)⟩

end Dungeon
