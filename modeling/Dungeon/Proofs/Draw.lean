import Dungeon.Random
import Mathlib

/-!
# What a computation ensures

A computation that draws words ensures a property when its value has it whatever the source. This is
all that the shape of a map needs to know of the draws: which numbers come out does not matter, only
the range they lie in.

Results:
1. `Draw.Ensures.bind`, `Draw.Ensures.mapM`: properties pass through sequences and lists of draws.
2. `Draw.between_ensures`: a number drawn from a range lies in it, whatever its size.
3. `Draw.between_run`: a range with more than one member takes one word.
4. `Draw.between_run_snd`, `Draw.swaps_run_snd`: how many words are taken.
-/

namespace Dungeon.Draw

variable {α β : Type}

/-- Run from any source, the computation gives a value with the property. -/
def Ensures (d : Draw α) (P : α → Prop) : Prop := ∀ s, P (d.run s).1

theorem Ensures.pure {P : α → Prop} {a : α} (h : P a) : Ensures (Pure.pure a) P := fun _ => h

theorem Ensures.mono {P Q : α → Prop} {d : Draw α} (h : d.Ensures P) (hPQ : ∀ a, P a → Q a) :
    d.Ensures Q := fun s => hPQ _ (h s)

theorem Ensures.bind {P : α → Prop} {Q : β → Prop} {d : Draw α} {f : α → Draw β}
    (h : d.Ensures P) (hf : ∀ a, P a → (f a).Ensures Q) : (d >>= f).Ensures Q :=
  fun s => hf _ (h s) (d.run s).2

theorem Ensures.trivial (d : Draw α) : d.Ensures fun _ => True := fun _ => True.intro

theorem Ensures.mapM {R : α → β → Prop} {f : α → Draw β} {items : List α}
    (h : ∀ a ∈ items, (f a).Ensures (R a)) : (items.mapM f).Ensures (List.Forall₂ R items) := by
  induction items with
  | nil => exact .pure .nil
  | cons a rest ih =>
    rw [List.mapM_cons]
    refine (h a List.mem_cons_self).bind fun b hb => ?_
    refine (ih fun c hc => h c (List.mem_cons_of_mem a hc)).bind fun bs hbs => ?_
    exact .pure (.cons hb hbs)

theorem Ensures.forall_mem_mapM {P : β → Prop} {f : α → Draw β} {items : List α}
    (h : ∀ a ∈ items, (f a).Ensures P) : (items.mapM f).Ensures fun bs => ∀ b ∈ bs, P b := by
  induction items with
  | nil => exact .pure (List.forall_mem_nil P)
  | cons a rest ih =>
    rw [List.mapM_cons]
    refine (h a List.mem_cons_self).bind fun b hb => ?_
    refine (ih fun c hc => h c (List.mem_cons_of_mem a hc)).bind fun bs hbs => ?_
    exact .pure (List.forall_mem_cons.mpr ⟨hb, hbs⟩)

/-! ## Ranges -/

theorem toNat_rangeSize (lo hi : Int) :
    ((rangeSize lo hi).toNat : Int) = (hi - lo + 1) % 4294967296 := by
  rw [rangeSize, UInt32.ofInt, UInt32.toNat_ofNat']
  omega

/-- The remainder of a word lies below the size of the range, also when that is too great for a
word. -/
theorem word_mod_rangeSize_le {lo hi : Int} (h : lo ≤ hi) (w : UInt32) :
    ((w % rangeSize lo hi).toNat : Int) ≤ hi - lo := by
  have hw : w.toNat < 4294967296 := w.toNat_lt
  have hsize := toNat_rangeSize lo hi
  rw [UInt32.toNat_mod]
  cases Nat.eq_zero_or_pos (rangeSize lo hi).toNat with
  | inl hzero =>
    -- The range has room for every word, and the remainder is the word itself.
    rw [hzero, Nat.mod_zero]
    omega
  | inr hpos =>
    have hlt := Nat.mod_lt w.toNat hpos
    omega

theorem between_ensures {lo hi : Int} (h : lo ≤ hi) :
    (between lo hi).Ensures fun v => lo ≤ v ∧ v ≤ hi := by
  unfold between
  split
  · next hle => exact .pure ⟨le_refl lo, h⟩
  · refine (Ensures.trivial word).bind fun w _ => .pure ⟨by omega, ?_⟩
    have hle := word_mod_rangeSize_le h w
    omega

theorem between_run {lo hi : Int} (h : lo < hi) (s : Source) :
    (between lo hi).run s = (lo + ((s.next.state % rangeSize lo hi).toNat : Int), s.next) := by
  rw [between, if_neg (not_le.mpr h)]
  rfl

theorem between_run_snd (lo hi : Int) (s : Source) :
    ((between lo hi).run s).2 = Source.next^[if hi ≤ lo then 0 else 1] s := by
  unfold between
  split <;> rfl

theorem swaps_run_snd (n : Nat) (s : Source) : ((swaps n).run s).2 = Source.next^[n] s := by
  induction n generalizing s with
  | zero => rfl
  | succ n ih =>
    have hrun : ((swaps (n + 1)).run s).2
        = ((swaps n).run ((between 0 (n + 1)).run s).2).2 := rfl
    rw [hrun, ih, between_run_snd, if_neg (by omega)]
    rfl

end Dungeon.Draw
