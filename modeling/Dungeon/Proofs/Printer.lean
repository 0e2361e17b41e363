import Dungeon.Proofs.JsonReader

/-!
# Printed numbers are JSON numbers

A number is printed with its digits around a point or with an exponent. Whatever the digits and the
exponent are, what is printed of a finite number can be read as a JSON number, and what is printed
of any other cannot.

Results:
1. `Json.exists_unsigned?_layOut`: digits that are laid out around their point can be read.
2. `Json.exists_number?_toText`: the numbers that can be read are the finite ones.
-/

namespace Dungeon

open Text (byte isDigit)
open Number

/-- The number is neither infinite nor none. -/
def Number.Binary.IsFinite {f : Format} (x : Binary f) : Prop := x.code < f.infinityCode

instance {f : Format} (x : Binary f) : Decidable x.IsFinite := inferInstanceAs (Decidable (_ < _))

namespace Json

/-- What is left of digits without their last zeros are digits. -/
theorem digits_dropZeros {t : Text} (h : ∀ c ∈ t, isDigit c = true) :
    ∀ c ∈ dropZeros t, isDigit c = true := by
  intro c hc
  have hreverse := List.mem_reverse.mp hc
  exact h c (List.mem_reverse.mp ((List.dropWhile_sublist _).subset hreverse))

/-- The first digits of a number have no zero in front, unless they are a zero. -/
theorem exists_whole?_take (n k : Nat) : ∃ m, whole? ((Text.ofNat n).take (k + 1)) = some m := by
  have hne : (Text.ofNat n).take (k + 1) ≠ [] := by
    intro hnil
    rcases List.take_eq_nil_iff.mp hnil with hk | hempty
    · cases hk
    · exact Text.ofNat_ne_nil n hempty
  have hdigits : ∀ c ∈ (Text.ofNat n).take (k + 1), isDigit c = true := fun c hc =>
    Text.isDigit_of_mem_ofNat n c (List.mem_of_mem_take hc)
  rw [whole?, if_neg, Text.readNat?_of_digits hne hdigits]
  · exact ⟨_, rfl⟩
  · rintro ⟨hzero, hlone⟩
    rw [List.head?_take] at hzero
    have hn := Text.head?_ofNat n hzero
    rw [hn] at hlone
    exact hlone (List.take_of_length_le (Nat.le_add_left 1 k))

theorem exists_fixed?_pointed {whole digits : Text} {n : Nat} (hwhole : whole? whole = some n)
    (hdigits : ∀ c ∈ digits, isDigit c = true) :
    ∃ x, fixed? (whole ++ pointed digits) = some x := by
  have hkept := digits_dropZeros hdigits
  rw [pointed]
  cases hdrop : dropZeros digits with
  | nil =>
    rw [List.append_nil]
    exact ⟨_, fixed?_of_whole? hwhole⟩
  | cons c rest =>
    rw [hdrop] at hkept
    exact ⟨_, fixed?_point hwhole (Text.readNat?_of_digits (List.cons_ne_nil c rest) hkept)⟩

/-- An exponent is read from its mark on. -/
theorem exists_readInt?_exponent (e : Int) :
    ∃ mark exponent k, exponentText e = mark :: exponent ∧ isExponentMark mark = true ∧
      Text.readInt? exponent = some k := by
  let digits := List.replicate (2 - (Text.ofNat e.natAbs).length) (byte '0') ++ Text.ofNat e.natAbs
  have hdigits : ∀ c ∈ digits, isDigit c = true := by
    intro c hc
    rcases List.mem_append.mp hc with hzero | hdigit
    · rw [List.eq_of_mem_replicate hzero]
      decide
    · exact Text.isDigit_of_mem_ofNat _ c hdigit
  have hread : Text.readNat? digits = some (Text.natValue digits) :=
    Text.readNat?_of_digits (List.append_ne_nil_of_right_ne_nil _ (Text.ofNat_ne_nil _)) hdigits
  by_cases he : e < 0
  · refine ⟨byte 'e', byte '-' :: digits, -(Text.natValue digits : Int), ?_, by decide, ?_⟩
    · rw [exponentText, if_pos he]
      rfl
    · exact Text.readInt?_minus hread
  · refine ⟨byte 'e', byte '+' :: digits, Text.natValue digits, ?_, by decide, ?_⟩
    · rw [exponentText, if_neg he]
      rfl
    · exact Text.readInt?_plus hread

theorem exists_unsigned?_exponent {t : Text} {x : Rat} (h : fixed? t = some x) (e : Int) :
    ∃ y, unsigned? (t ++ exponentText e) = some y := by
  obtain ⟨mark, exponent, k, htext, hmark, hread⟩ := exists_readInt?_exponent e
  have hall : ∀ c ∈ t, (!isExponentMark c) = true := by
    intro c hc
    rw [isExponentMark_of_isFixed ((made_of_fixed? h).2 c hc)]
    rfl
  have hstop : ∀ c ∈ (mark :: exponent).head?, (!isExponentMark c) = false := by
    rintro c ⟨⟩
    rw [hmark]
    rfl
  rw [unsigned?, htext, Text.takeWhile_stop hall hstop, Text.dropWhile_stop hall hstop, h,
    Option.bind_some]
  dsimp only
  rw [hread]
  exact ⟨_, rfl⟩

theorem exists_unsigned?_layOut (n : Nat) (e : Int) :
    ∃ x, unsigned? (layOut (Text.ofNat n) e) = some x := by
  have hdigits := Text.isDigit_of_mem_ofNat n
  rw [layOut]
  split
  · obtain ⟨m, hm⟩ := exists_whole?_take n 0
    obtain ⟨x, hx⟩ := exists_fixed?_pointed hm fun c hc => hdigits c (List.mem_of_mem_drop hc)
    exact exists_unsigned?_exponent hx e
  split
  · have hzero : whole? "0" = some 0 := by decide
    have hpadded : ∀ c ∈ List.replicate (-e - 1).toNat (byte '0') ++ Text.ofNat n,
        isDigit c = true := by
      intro c hc
      rcases List.mem_append.mp hc with hpad | hdigit
      · rw [List.eq_of_mem_replicate hpad]
        decide
      · exact hdigits c hdigit
    obtain ⟨x, hx⟩ := exists_fixed?_pointed hzero hpadded
    exact ⟨x, unsigned?_of_fixed? hx⟩
  · next he =>
    obtain ⟨k, hk⟩ : ∃ k, (e + 1).toNat = k + 1 := ⟨e.toNat, by omega⟩
    rw [hk]
    obtain ⟨m, hm⟩ := exists_whole?_take n k
    obtain ⟨x, hx⟩ := exists_fixed?_pointed hm fun c hc => hdigits c (List.mem_of_mem_drop hc)
    exact ⟨x, unsigned?_of_fixed? hx⟩

theorem exists_unsigned?_fractionText (num den : Nat) :
    ∃ x, unsigned? (fractionText num den) = some x := by
  rw [fractionText]
  split
  · exact exists_unsigned?_layOut 0 0
  · exact exists_unsigned?_layOut _ _

theorem exists_number?_signed {t : Text} {x : Rat} (h : unsigned? t = some x) (negative : Bool) :
    ∃ y, number? (signText negative ++ t) = some y := by
  cases negative with
  | false => exact ⟨x, number?_of_unsigned? h⟩
  | true => exact ⟨-x, number?_minus h⟩

/-- A name is no number, also behind a sign. -/
theorem number?_name {name : Text} (hname : name.all isNumeral = false) (negative : Bool) :
    number? (signText negative ++ name) = none := by
  cases hread : number? (signText negative ++ name) with
  | none => rfl
  | some x =>
    have hall := List.all_eq_true.mpr (made_of_number? hread).2
    rw [List.all_append, hname, Bool.and_false] at hall
    cases hall

theorem exists_number?_toText {f : Format} (x : Binary f) :
    (∃ y, number? x.toText = some y) ↔ x.IsFinite := by
  rw [Binary.IsFinite, Binary.toText, Binary.datum]
  by_cases hfinite : x.code < f.infinityCode
  · rw [if_pos hfinite]
    refine iff_of_true ?_ hfinite
    obtain ⟨y, hy⟩ := exists_unsigned?_fractionText
      (fractionOf (f.magnitude x.code).1 (f.magnitude x.code).2).1
      (fractionOf (f.magnitude x.code).1 (f.magnitude x.code).2).2
    exact exists_number?_signed hy x.isNegative
  · rw [if_neg hfinite]
    refine iff_of_false ?_ hfinite
    rintro ⟨y, hy⟩
    split at hy
    · next negative _ =>
      rw [number?_name (by decide) negative] at hy
      cases hy
    · next negative _ =>
      rw [number?_name (by decide) negative] at hy
      cases hy
    · next hdatum =>
      split at hdatum <;> cases hdatum

end Json
end Dungeon
