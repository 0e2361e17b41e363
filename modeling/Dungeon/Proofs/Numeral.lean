import Mathlib.Data.Nat.Digits.Defs
import Dungeon.Proofs.Cutting
import Dungeon.Proofs.Decimal

/-!
# Numerals

A numeral is an optional sign and one or more decimal digits, and it denotes a whole number. The
reader of whole numbers takes exactly the numerals, and from them the numbers that they denote.

There is another way to read a numeral: take as much of it as stands in front of a text, and then
see to it that only blanks are left. Where no blanks stand at the ends of a text this comes to the
same.

Results:
1. `Text.readInt?_eq_some_iff`, `Text.readInt32?_eq_some_iff`: what the reader takes.
2. `Text.scanInt32?_trim`: scanning from the front comes to the same.
3. `Text.denotes_ofInt`: every whole number is denoted by what is written for it.
-/

namespace Dungeon.Text

/-! ## What a numeral denotes -/

/-- The number that digits stand for, by their places from the last one on. -/
def placeValue (digits : Text) : Nat := Nat.ofDigits 10 (digits.reverse.map digitValue)

/-- An optional sign and one or more digits denote a whole number. -/
inductive Denotes : Text → Int → Prop where
  | plain {digits : Text} (some : digits ≠ []) (all : ∀ c ∈ digits, isDigit c = true) :
      Denotes digits (placeValue digits)
  | plus {digits : Text} (some : digits ≠ []) (all : ∀ c ∈ digits, isDigit c = true) :
      Denotes (byte '+' :: digits) (placeValue digits)
  | minus {digits : Text} (some : digits ≠ []) (all : ∀ c ∈ digits, isDigit c = true) :
      Denotes (byte '-' :: digits) (-(placeValue digits))

/-- Counting up digit by digit comes to the value by places. -/
theorem natValue_eq_placeValue (digits : Text) : natValue digits = placeValue digits := by
  induction digits using List.reverseRecOn with
  | nil => rfl
  | append_singleton digits c ih =>
    rw [natValue_concat, ih, placeValue, placeValue, List.reverse_concat, List.map_cons,
      Nat.ofDigits_cons, add_comm]

/-! ## Reading the whole text -/

theorem readNat?_eq_some_iff {t : Text} {n : Nat} :
    readNat? t = some n ↔ (t ≠ [] ∧ ∀ c ∈ t, isDigit c = true) ∧ placeValue t = n := by
  rw [readNat?, Option.ite_none_right_eq_some, Option.some.injEq, List.all_eq_true,
    natValue_eq_placeValue]

theorem splitSign_cases (t : Text) :
    splitSign t = (false, t) ∧ t.head? ≠ some (byte '+') ∧ t.head? ≠ some (byte '-') ∨
      (∃ digits, t = byte '+' :: digits ∧ splitSign t = (false, digits)) ∨
      ∃ digits, t = byte '-' :: digits ∧ splitSign t = (true, digits) := by
  cases t with
  | nil => exact .inl ⟨rfl, by simp, by simp⟩
  | cons c rest =>
    by_cases hplus : c = byte '+'
    · subst hplus
      exact .inr (.inl ⟨rest, rfl, rfl⟩)
    · by_cases hminus : c = byte '-'
      · subst hminus
        exact .inr (.inr ⟨rest, rfl, rfl⟩)
      · refine .inl ⟨?_, by simpa using hplus, by simpa using hminus⟩
        rw [splitSign, if_neg hplus, if_neg hminus]

theorem splitSign_of_digits {t : Text} (h : ∀ c ∈ t, isDigit c = true) :
    splitSign t = (false, t) := by
  rcases splitSign_cases t with ⟨hsign, _⟩ | ⟨digits, rfl, _⟩ | ⟨digits, rfl, _⟩
  · exact hsign
  · exact absurd (h _ List.mem_cons_self) (by decide)
  · exact absurd (h _ List.mem_cons_self) (by decide)

theorem readInt?_eq (t : Text) : readInt? t =
    (readNat? (splitSign t).2).map fun (n : Nat) => if (splitSign t).1 then -(n : Int) else n := by
  rw [readInt?]
  generalize splitSign t = parts
  obtain ⟨negative, digits⟩ := parts
  dsimp only
  cases readNat? digits <;> rfl

/-- The reader takes the numerals and nothing else. -/
theorem readInt?_eq_some_iff {t : Text} {n : Int} : readInt? t = some n ↔ Denotes t n := by
  constructor
  · intro h
    rw [readInt?_eq, Option.map_eq_some_iff] at h
    obtain ⟨k, hk, rfl⟩ := h
    obtain ⟨⟨hne, hall⟩, rfl⟩ := readNat?_eq_some_iff.mp hk
    rcases splitSign_cases t with ⟨hsign, _⟩ | ⟨digits, rfl, hsign⟩ | ⟨digits, rfl, hsign⟩
    · rw [hsign] at hne hall ⊢
      exact .plain hne hall
    · rw [hsign] at hne hall ⊢
      exact .plus hne hall
    · rw [hsign] at hne hall ⊢
      exact .minus hne hall
  · rintro (⟨hne, hall⟩ | ⟨hne, hall⟩ | ⟨hne, hall⟩)
    · rw [readInt?_eq, splitSign_of_digits hall, readNat?_eq_some_iff.mpr ⟨⟨hne, hall⟩, rfl⟩]
      rfl
    · exact readInt?_plus (readNat?_eq_some_iff.mpr ⟨⟨hne, hall⟩, rfl⟩)
    · exact readInt?_minus (readNat?_eq_some_iff.mpr ⟨⟨hne, hall⟩, rfl⟩)

theorem readInt32?_eq_some_iff {t : Text} {n : Int} :
    readInt32? t = some n ↔ Denotes t n ∧ Fits32 n := by
  rw [readInt32?, Option.filter_eq_some_iff, decide_eq_true_eq, readInt?_eq_some_iff]

theorem denotes_ofInt (n : Int) : Denotes (ofInt n) n := by
  rw [← readInt?_eq_some_iff]
  cases n with
  | ofNat n =>
    rw [ofInt, readInt?_eq, splitSign_of_digits (isDigit_of_mem_ofNat n), readNat?_ofNat]
    rfl
  | negSucc n => exact readInt?_minus (readNat?_ofNat (n + 1))

theorem isBlank_of_isDigit {c : UInt8} (h : isDigit c = true) : isBlank c = false := by
  obtain ⟨hlow, -⟩ : 48 ≤ c ∧ c ≤ 57 := by simpa [isDigit] using h
  have hspace : c ≠ 32 := by
    rintro rfl
    exact absurd hlow (by decide)
  have habove : ¬ c ≤ 13 := fun hle => absurd (UInt8.le_trans hlow hle) (by decide)
  simp [isBlank, hspace, habove]

theorem isDigit_or_minus_of_mem_ofInt {n : Int} {c : UInt8} (h : c ∈ ofInt n) :
    isDigit c = true ∨ c = byte '-' := by
  cases n with
  | ofNat n => exact .inl (isDigit_of_mem_ofNat n c h)
  | negSucc n =>
    rcases List.mem_cons.mp h with rfl | h
    · exact .inr rfl
    · exact .inl (isDigit_of_mem_ofNat (n + 1) c h)

theorem trim_ofInt (n : Int) : trim (ofInt n) = ofInt n := by
  have hblank : ∀ c ∈ ofInt n, isBlank c = false := by
    intro c hc
    rcases isDigit_or_minus_of_mem_ofInt hc with hdigit | rfl
    · exact isBlank_of_isDigit hdigit
    · decide
  exact trim_eq_self (fun c hc => hblank c (List.mem_of_mem_head? hc))
    fun c hc => hblank c (List.mem_of_mem_getLast? hc)

/-! ## Reading from the front -/

/-- Reads the numeral in front of a text, after blanks and as far as its digits go. Gives the number
and what stands behind it. -/
def scanInt? (t : Text) : Option (Int × Text) :=
  let (negative, rest) := splitSign (t.dropWhile isBlank)
  let n : Int := natValue (rest.takeWhile isDigit)
  if rest.takeWhile isDigit = [] then none
  else some (if negative then -n else n, rest.dropWhile isDigit)

/-- Reads a number that fits in 32 bits with a sign from the front of a text, and sees to it that
only blanks stand behind it. -/
def scanInt32? (t : Text) : Option Int :=
  (scanInt? t).bind fun (n, rest) => if Fits32 n ∧ rest.all isBlank then some n else none

/-- Behind a text without blanks at its end only nothing is blank. -/
theorem all_isBlank_iff {front rest : Text}
    (hlast : ∀ c ∈ (front ++ rest).getLast?, isBlank c = false) :
    rest.all isBlank = true ↔ rest = [] := by
  constructor
  · intro hall
    by_contra hne
    have hmem := List.getLast_mem hne
    have hblank := hlast (rest.getLast hne) (by
      rw [List.getLast?_append_of_ne_nil front hne]
      exact List.getLast_mem_getLast? hne)
    rw [List.all_eq_true.mp hall _ hmem] at hblank
    cases hblank
  · rintro rfl
    rfl

theorem exists_splitSign_append (t : Text) : ∃ sign, t = sign ++ (splitSign t).2 := by
  rcases splitSign_cases t with ⟨hsign, _⟩ | ⟨digits, rfl, hsign⟩ | ⟨digits, rfl, hsign⟩
  · exact ⟨[], by rw [hsign]; rfl⟩
  · exact ⟨[byte '+'], by rw [hsign]; rfl⟩
  · exact ⟨[byte '-'], by rw [hsign]; rfl⟩

/-- Without blanks at the ends, reading from the front is reading the whole text. -/
theorem scanInt32?_eq {t : Text} (hhead : ∀ c ∈ t.head?, isBlank c = false)
    (hlast : ∀ c ∈ t.getLast?, isBlank c = false) : scanInt32? t = readInt32? t := by
  have hdrop : t.dropWhile isBlank = t := dropWhile_stop (t := []) (by simp) hhead
  obtain ⟨sign, hsign⟩ := exists_splitSign_append t
  rw [scanInt32?, scanInt?, hdrop, readInt32?, readInt?_eq]
  generalize splitSign t = parts at hsign
  obtain ⟨negative, rest⟩ := parts
  dsimp only at *
  have hcut : sign ++ rest.takeWhile isDigit ++ rest.dropWhile isDigit = t := by
    rw [List.append_assoc, List.takeWhile_append_dropWhile, ← hsign]
  have hbehind : (rest.dropWhile isDigit).all isBlank = true ↔ ∀ c ∈ rest, isDigit c = true := by
    rw [all_isBlank_iff (hcut.symm ▸ hlast), List.dropWhile_eq_nil_iff]
  by_cases hall : ∀ c ∈ rest, isDigit c = true
  · by_cases hne : rest = []
    · subst hne
      rfl
    · rw [List.takeWhile_eq_self_iff.mpr hall, if_neg hne, readNat?_of_digits hne hall,
        Option.bind_some, Option.map_some, Option.filter_some]
      simp only [and_iff_left (hbehind.mpr hall), decide_eq_true_eq]
  · have hread : readNat? rest = none := by
      rw [readNat?, if_neg fun h => hall (List.all_eq_true.mp h.2)]
    rw [hread]
    split
    · rfl
    · rw [Option.bind_some, if_neg fun h => hall (hbehind.mp h.2)]
      rfl

theorem scanInt32?_trim (t : Text) : scanInt32? (trim t) = readInt32? (trim t) :=
  scanInt32?_eq (head?_trim t) (getLast?_trim t)

end Dungeon.Text
