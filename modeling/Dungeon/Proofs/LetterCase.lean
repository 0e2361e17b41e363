import Dungeon.Text
import Mathlib.Data.List.Forall2

/-!
# The case of letters

Lower case makes one letter of two. A class of bytes that has no letters cannot tell the two apart,
so a text that is cut behind such a class, or at a byte that is no letter, is cut at the same place
in either case.

Results:
1. `Text.lower_of_sameLetter`: texts that differ in the case of letters are one text in lower case.
2. `Text.before_lower`, `Text.dropWhile_lower`, `Text.trim_lower`: cutting at a class without
   letters.
3. `Text.after?_lower`, `Text.mem_lower_iff`: bytes that are no letters.
-/

namespace Dungeon.Text

/-- The second byte is the first one, or the same letter in the other case. -/
def SameLetter (c d : UInt8) : Prop :=
  d = c ∨ isUpper c = true ∧ d = c + 32 ∨ isLower c = true ∧ d = c - 32

instance (c d : UInt8) : Decidable (SameLetter c d) :=
  inferInstanceAs (Decidable (_ ∨ _ ∧ _ ∨ _ ∧ _))

section Letters

variable {c d : UInt8}

theorem isUpper_iff : isUpper c = true ↔ 65 ≤ c ∧ c ≤ 90 := by
  rw [isUpper, Bool.and_eq_true, decide_eq_true_eq, decide_eq_true_eq]

theorem isLower_iff : isLower c = true ↔ 97 ≤ c ∧ c ≤ 122 := by
  rw [isLower, Bool.and_eq_true, decide_eq_true_eq, decide_eq_true_eq]

theorem isLower_add (h : isUpper c = true) : isLower (c + 32) = true := by
  rw [isUpper_iff] at h
  rw [isLower_iff]
  grind

theorem isUpper_sub (h : isLower c = true) : isUpper (c - 32) = true := by
  rw [isLower_iff] at h
  rw [isUpper_iff]
  grind

theorem not_isUpper_of_isLower (h : isLower c = true) : ¬ isUpper c = true := by
  rw [isLower_iff] at h
  rw [isUpper_iff]
  grind

theorem lowerByte_of_isLower (h : isLower c = true) : lowerByte c = c :=
  if_neg (not_isUpper_of_isLower h)

theorem lowerByte_of_isUpper (h : isUpper c = true) : lowerByte c = c + 32 := if_pos h

theorem lowerByte_of_sameLetter (h : SameLetter c d) : lowerByte d = lowerByte c := by
  rcases h with rfl | ⟨hupper, rfl⟩ | ⟨hlower, rfl⟩
  · rfl
  · rw [lowerByte_of_isLower (isLower_add hupper), lowerByte_of_isUpper hupper]
  · rw [lowerByte_of_isUpper (isUpper_sub hlower), lowerByte_of_isLower hlower,
      UInt8.sub_add_cancel]

theorem lower_of_sameLetter {t u : Text} (h : List.Forall₂ SameLetter t u) : lower u = lower t := by
  induction h with
  | nil => rfl
  | cons hbyte _ ih => exact congrArg₂ List.cons (lowerByte_of_sameLetter hbyte) ih

theorem sameLetter_lowerByte (c : UInt8) : SameLetter c (lowerByte c) := by
  unfold lowerByte
  split
  · next hupper => exact .inr (.inl ⟨hupper, rfl⟩)
  · exact .inl rfl

theorem lower_lower (t : Text) : lower (lower t) = lower t := by
  simp only [lower, List.map_map, List.map_inj_left, Function.comp_apply]
  exact fun c _ => lowerByte_of_sameLetter (sameLetter_lowerByte c)

/-- A class without letters does not see their case. -/
theorem class_lowerByte {p : UInt8 → Bool} (hp : ∀ c, isLetter c = true → p c = false) :
    p ∘ lowerByte = p := by
  funext c
  rw [Function.comp_apply, lowerByte]
  split
  · next hupper =>
    have hletter : isLetter c = true := Bool.or_eq_true_iff.mpr (.inl hupper)
    have hletter' : isLetter (c + 32) = true := Bool.or_eq_true_iff.mpr (.inr (isLower_add hupper))
    rw [hp c hletter, hp _ hletter']
  · rfl

theorem lowerByte_eq_iff (hd : isLetter d = false) : lowerByte c = d ↔ c = d := by
  have hclass : ((· == d) ∘ lowerByte) = (· == d) := class_lowerByte fun e he =>
    beq_eq_false_iff_ne.mpr fun heq => by rw [heq, hd] at he; cases he
  have hbyte := congrFun hclass c
  rwa [Function.comp_apply, Bool.eq_iff_iff, beq_iff_eq, beq_iff_eq] at hbyte

theorem mem_lower_iff (hd : isLetter d = false) {t : Text} : d ∈ lower t ↔ d ∈ t := by
  simp only [lower, List.mem_map, lowerByte_eq_iff hd, exists_eq_right]

end Letters

/-! ## Cuts -/

section Cuts

variable {p : UInt8 → Bool} (hp : ∀ c, isLetter c = true → p c = false) (t : Text)

include hp

theorem exists_mem_lower_iff : (∃ c ∈ lower t, p c = true) ↔ ∃ c ∈ t, p c = true := by
  have hclass : ∀ c, p (lowerByte c) = p c := congrFun (class_lowerByte hp)
  simp [lower, hclass]

theorem before_lower : before p (lower t) = lower (before p t) := by
  have hcomp : (fun c => !p c) ∘ lowerByte = fun c => !p c := by
    funext c
    exact congrArg not (congrFun (class_lowerByte hp) c)
  rw [before, lower, List.takeWhile_map, hcomp, before, lower]

theorem dropWhile_lower : (lower t).dropWhile p = lower (t.dropWhile p) := by
  rw [lower, List.dropWhile_map, class_lowerByte hp, lower]

end Cuts

theorem isBlank_of_isLetter (c : UInt8) (h : isLetter c = true) : isBlank c = false := by
  unfold isLetter isUpper isLower at h
  unfold isBlank
  grind

theorem trim_lower (t : Text) : trim (lower t) = lower (trim t) := by
  have hreverse : ∀ t : Text, (lower t).reverse = lower t.reverse := fun t => List.map_reverse.symm
  rw [trim, trim, strip, strip, dropWhile_lower isBlank_of_isLetter, hreverse,
    dropWhile_lower isBlank_of_isLetter, hreverse]

theorem after?_lower {front : Text} (hfront : ∀ c ∈ front, isLetter c = false) (t : Text) :
    after? front (lower t) = (after? front t).map lower := by
  induction front generalizing t with
  | nil => rfl
  | cons c front ih =>
    cases t with
    | nil => rfl
    | cons d t =>
      have hbyte : c = lowerByte d ↔ c = d := by
        rw [eq_comm, lowerByte_eq_iff (hfront c List.mem_cons_self), eq_comm]
      show after? (c :: front) (lowerByte d :: lower t) = _
      rw [after?, after?, ih fun e he => hfront e (List.mem_cons_of_mem c he)]
      simp only [hbyte]
      split <;> rfl

end Dungeon.Text
