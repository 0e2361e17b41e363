import Dungeon.Proofs.Draw
import Dungeon.Proofs.Powers

/-!
# The period of the random words

The step of the state has order `2 ^ 32 - 1`, by calculation with polynomials: this power of the step
is the identity, and its quotients by the prime factors of the exponent are not, at no state but
zero. For what such a power changes in a state can be turned back into the state by another
polynomial. So all words but zero lie on one cycle, and calls only ever move a source along it.

Results:
1. `Source.minimalPeriod_step`: every state but zero comes back after `2 ^ 32 - 1` steps, and not
   before.
2. `Source.exists_iterate_step`: on the way it meets every other state but zero.
3. `Source.Call.run_eq`: what calls on a source do to it.
4. `Source.step_fullPeriod`: the single cycle, and that no sequence of calls leaves it.
-/

namespace Dungeon.Source

/-! ## The period -/

theorem iterate_step_period (x : UInt32) : step^[2 ^ 32 - 1] x = x := by
  have hpower : powerX 32 (2 ^ 32 - 1) = 1 := by decide +kernel
  rw [← combination_powerX (n := 32) (by decide), hpower]
  exact combination_one 31 x

/-- What a power of the step changes in a state can be turned back into the state, if the difference
of the power and one has an inverse. -/
theorem eq_zero_of_iterate_step (inverse : Nat) {e : Nat} (he : e < 2 ^ 32)
    (hinverse : times 32 inverse (powerX 32 e ^^^ 1) = 1) {x : UInt32} (hx : step^[e] x = x) :
    x = 0 := by
  have hsum : powerX 32 e ^^^ 1 < 2 ^ 32 := Nat.xor_lt_two_pow (powerX_lt 32 e) (by decide)
  have hchange : combination 32 (powerX 32 e ^^^ 1) x = 0 := by
    rw [combination_xor, combination_powerX he, combination_one, hx, UInt32.xor_self]
  calc x = combination 32 (times 32 inverse (powerX 32 e ^^^ 1)) x := by
        rw [hinverse]
        exact (combination_one 31 x).symm
    _ = combination 32 inverse (combination 32 (powerX 32 e ^^^ 1) x) := combination_times hsum 32 _ x
    _ = 0 := by rw [hchange, combination_apply_zero]

theorem prime_dvd_period {p : Nat} (hp : p.Prime) (h : p ∣ 2 ^ 32 - 1) :
    p = 3 ∨ p = 5 ∨ p = 17 ∨ p = 257 ∨ p = 65537 := by
  have hfactors : 2 ^ 32 - 1 = 3 * 5 * 17 * 257 * 65537 := by decide
  rw [hfactors] at h
  simp only [hp.dvd_mul] at h
  have hprime : ∀ q : Nat, q.Prime → p ∣ q → p = q := fun q hq => (Nat.prime_dvd_prime_iff_eq hp hq).mp
  rcases h with (((h | h) | h) | h) | h
  · exact .inl (hprime 3 (by norm_num) h)
  · exact .inr (.inl (hprime 5 (by norm_num) h))
  · exact .inr (.inr (.inl (hprime 17 (by norm_num) h)))
  · exact .inr (.inr (.inr (.inl (hprime 257 (by norm_num) h))))
  · exact .inr (.inr (.inr (.inr (hprime 65537 (by norm_num) h))))

theorem iterate_step_div_prime {p : Nat} (hp : p.Prime) (h : p ∣ 2 ^ 32 - 1) {x : UInt32}
    (hx : x ≠ 0) : step^[(2 ^ 32 - 1) / p] x ≠ x := by
  intro hback
  rcases prime_dvd_period hp h with rfl | rfl | rfl | rfl | rfl
  · exact hx (eq_zero_of_iterate_step 0x9a1b191d (by decide) (by decide +kernel) hback)
  · exact hx (eq_zero_of_iterate_step 0x256daa81 (by decide) (by decide +kernel) hback)
  · exact hx (eq_zero_of_iterate_step 0x552bd776 (by decide) (by decide +kernel) hback)
  · exact hx (eq_zero_of_iterate_step 0xac9b5802 (by decide) (by decide +kernel) hback)
  · exact hx (eq_zero_of_iterate_step 0xd1472012 (by decide) (by decide +kernel) hback)

/-- A point that comes back after `n` steps, but not after `n` over any of its prime factors, does
not come back sooner. -/
theorem minimalPeriod_eq_of_div_prime {α : Type} {f : α → α} {x : α} {n : Nat}
    (hx : f^[n] x = x) (hprime : ∀ p : Nat, p.Prime → p ∣ n → f^[n / p] x ≠ x) :
    Function.minimalPeriod f x = n := by
  obtain ⟨m, hm⟩ := (show Function.IsPeriodicPt f n x from hx).minimalPeriod_dvd
  have hone : m = 1 := by
    by_contra hne
    obtain ⟨p, hp, k, rfl⟩ := Nat.exists_prime_and_dvd hne
    have hquotient : n / p = k * Function.minimalPeriod f x := by
      rw [hm]
      exact Nat.div_eq_of_eq_mul_left hp.pos (by ring)
    refine hprime p hp ⟨Function.minimalPeriod f x * k, by rw [hm]; ring⟩ ?_
    rw [hquotient]
    exact (Function.isPeriodicPt_minimalPeriod f x).const_mul k
  rw [hm, hone, mul_one]

theorem minimalPeriod_step {x : UInt32} (hx : x ≠ 0) :
    Function.minimalPeriod step x = 2 ^ 32 - 1 :=
  minimalPeriod_eq_of_div_prime (iterate_step_period x)
    fun _ hp hdvd => iterate_step_div_prime hp hdvd hx

/-! ## The cycle -/

theorem step_injective : Function.Injective step := by
  intro x y h
  have hsplit : 2 ^ 32 - 1 = (2 ^ 32 - 2) + 1 := by decide
  rw [← iterate_step_period x, ← iterate_step_period y, hsplit, Function.iterate_succ_apply,
    Function.iterate_succ_apply, h]

theorem step_ne_zero {x : UInt32} (hx : x ≠ 0) : step x ≠ 0 :=
  fun h => hx (step_injective (h.trans step_zero.symm))

theorem iterate_step_ne_zero {x : UInt32} (hx : x ≠ 0) (k : Nat) : step^[k] x ≠ 0 := by
  induction k with
  | zero => exact hx
  | succ k ih =>
    rw [Function.iterate_succ_apply']
    exact step_ne_zero ih

theorem step_bijOn : Set.BijOn step {0}ᶜ {0}ᶜ := by
  refine ⟨fun x hx => step_ne_zero hx, step_injective.injOn, fun y hy => ?_⟩
  refine ⟨step^[2 ^ 32 - 2] y, iterate_step_ne_zero hy _, ?_⟩
  have hsplit : (2 ^ 32 - 2).succ = 2 ^ 32 - 1 := by decide
  rw [← Function.iterate_succ_apply' step, hsplit, iterate_step_period]

theorem card_word : Fintype.card UInt32 = 2 ^ 32 := by
  have hequiv : UInt32 ≃ Fin (2 ^ 32) := ⟨UInt32.toFin, UInt32.ofFin, fun _ => rfl, fun _ => rfl⟩
  rw [Fintype.card_congr hequiv, Fintype.card_fin]

theorem exists_iterate_step {x y : UInt32} (hx : x ≠ 0) (hy : y ≠ 0) :
    ∃ k < 2 ^ 32 - 1, step^[k] x = y := by
  -- The states of one period are as many as there are words but zero.
  have horbit : (Finset.range (2 ^ 32 - 1)).image (fun k => step^[k] x) = Finset.univ.erase 0 := by
    refine Finset.eq_of_subset_of_card_le (fun z hz => ?_) ?_
    · obtain ⟨k, _, rfl⟩ := Finset.mem_image.mp hz
      exact Finset.mem_erase.mpr ⟨iterate_step_ne_zero hx k, Finset.mem_univ _⟩
    · rw [Finset.card_erase_of_mem (Finset.mem_univ _), Finset.card_univ, card_word,
        Finset.card_image_of_injOn, Finset.card_range]
      intro i hi j hj
      rw [Finset.coe_range, ← minimalPeriod_step hx] at hi hj
      exact Function.iterate_injOn_Iio_minimalPeriod hi hj
  have hmem : y ∈ Finset.univ.erase (0 : UInt32) := Finset.mem_erase.mpr ⟨hy, Finset.mem_univ y⟩
  rw [← horbit] at hmem
  obtain ⟨k, hk, hxy⟩ := Finset.mem_image.mp hmem
  exact ⟨k, Finset.mem_range.mp hk, hxy⟩

/-! ## Calls -/

theorem state_next_iterate (s : Source) (k : Nat) : (next^[k] s).state = step^[k] s.state := by
  induction k with
  | zero => rfl
  | succ k ih =>
    rw [Function.iterate_succ_apply', Function.iterate_succ_apply', ← ih]
    rfl

/-- What a program may ask of a source. -/
inductive Call where
  | restart (seed : UInt32)
  | word
  | between (lo hi : Int)
  | unitFraction
  | chance (probability : Number.Double)
  | choose {α : Type} (items : List α)
  | shuffle {α : Type} (items : List α)

namespace Call

/-- The source after a call. -/
def run (s : Source) : Call → Source
  | restart seed => ((Draw.restart seed).run s).2
  | word => (Draw.word.run s).2
  | between lo hi => ((Draw.between lo hi).run s).2
  | unitFraction => (Draw.unitFraction.run s).2
  | chance probability => ((Draw.chance probability).run s).2
  | choose items => ((Draw.choose? items).run s).2
  | shuffle items => ((Draw.shuffle items).run s).2

/-- The source with which a call starts. -/
def start (s : Source) : Call → Source
  | restart seed => ofSeed seed
  | _ => s

/-- How many words a call takes. -/
def words : Call → Nat
  | restart _ => 0
  | word | unitFraction | chance _ => 1
  | between lo hi => if hi ≤ lo then 0 else 1
  | choose items => if items.length ≤ 1 then 0 else 1
  | shuffle items => items.length - 1

theorem run_eq (call : Call) (s : Source) : call.run s = next^[call.words] (call.start s) := by
  cases call with
  | restart seed => rfl
  | word => rfl
  | between lo hi => exact Draw.between_run_snd lo hi s
  | unitFraction => rfl
  | chance probability => rfl
  | choose items =>
    have hrun : ((Draw.choose? items).run s).2
        = ((Draw.between 0 ((items.length : Int) - 1)).run s).2 := rfl
    have hfew : (items.length : Int) - 1 ≤ 0 ↔ items.length ≤ 1 := by omega
    rw [run, hrun, Draw.between_run_snd]
    simp only [hfew]
    rfl
  | shuffle items => exact Draw.swaps_run_snd (items.length - 1) s

end Call

theorem ofSeed_state_ne_zero (seed : UInt32) : (ofSeed seed).state ≠ 0 := by
  unfold ofSeed
  dsimp only
  split
  · decide
  · next h => exact h

theorem start_state_ne_zero (call : Call) {s : Source} (hs : s.state ≠ 0) :
    (call.start s).state ≠ 0 := by
  cases call with
  | restart seed => exact ofSeed_state_ne_zero seed
  | _ => exact hs

theorem run_state_ne_zero (call : Call) {s : Source} (hs : s.state ≠ 0) :
    (call.run s).state ≠ 0 := by
  rw [call.run_eq, state_next_iterate]
  exact iterate_step_ne_zero (start_state_ne_zero call hs) call.words

theorem foldl_run_state_ne_zero (calls : List Call) {s : Source} (hs : s.state ≠ 0) :
    (calls.foldl Call.run s).state ≠ 0 := by
  induction calls generalizing s with
  | nil => exact hs
  | cons call rest ih => exact ih (run_state_ne_zero call hs)

/-- A source whose state is not zero comes back to it after `2 ^ 32 - 1` words for the first time, and
the step permutes the words but zero in one cycle. A source that is made from a seed, even from zero,
and then called in any way never has the state zero: neither between calls nor within one, which
takes its words one after the other, and none of these words is zero. -/
theorem step_fullPeriod :
    (∀ s : Source, s.state ≠ 0 →
      IsLeast {k | 1 ≤ k ∧ (next^[k] s).state = s.state} (2 ^ 32 - 1)) ∧
    (Set.BijOn step {0}ᶜ {0}ᶜ ∧
      ∀ x y : UInt32, x ≠ 0 → y ≠ 0 → ∃ k < 2 ^ 32 - 1, step^[k] x = y) ∧
    ∀ (seed : UInt32) (calls : List Call) (call : Call),
      let s := calls.foldl Call.run (ofSeed seed)
      s.state ≠ 0 ∧
        call.run s = next^[call.words] (call.start s) ∧
        (∀ k ≤ call.words, (next^[k] (call.start s)).state ≠ 0) ∧
        ∀ k < call.words, (Draw.word.run (next^[k] (call.start s))).1 ≠ 0 := by
  refine ⟨fun s hs => ⟨⟨by decide, ?_⟩, fun k hk => ?_⟩, ⟨step_bijOn, fun x y => exists_iterate_step⟩,
    fun seed calls call => ?_⟩
  · rw [state_next_iterate, iterate_step_period]
  · obtain ⟨hpos, hback⟩ := hk
    rw [state_next_iterate] at hback
    rw [← minimalPeriod_step hs]
    exact Function.IsPeriodicPt.minimalPeriod_le hpos hback
  · intro s
    have hs : s.state ≠ 0 := foldl_run_state_ne_zero calls (ofSeed_state_ne_zero seed)
    have hpassed : ∀ k, (next^[k] (call.start s)).state ≠ 0 := fun k => by
      rw [state_next_iterate]
      exact iterate_step_ne_zero (start_state_ne_zero call hs) k
    exact ⟨hs, call.run_eq s, fun k _ => hpassed k, fun k _ => step_ne_zero (hpassed k)⟩

/-- The stream of seed zero is on the cycle too, and it comes to the word with all bits set. -/
theorem step_fullPeriod_ofZero :
    (ofSeed 0).state ≠ 0 ∧
      IsLeast {k | 1 ≤ k ∧ (next^[k] (ofSeed 0)).state = (ofSeed 0).state} (2 ^ 32 - 1) ∧
      ∃ k < 2 ^ 32 - 1, step^[k] (ofSeed 0).state = 0xffffffff :=
  have hstate : (ofSeed 0).state ≠ 0 := by decide
  ⟨hstate, step_fullPeriod.1 _ hstate, step_fullPeriod.2.1.2 _ _ hstate (by decide)⟩

end Dungeon.Source
