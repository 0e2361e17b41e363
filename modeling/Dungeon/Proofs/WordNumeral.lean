import Mathlib
import Dungeon.Proofs.Numeral

/-!
# Numerals of words

A numeral of a word is one or more digits for a number that fits in 32 bits, with any number of
zeros in front. The reader counts it up in 64 bits and stops as soon as the number does not fit: no
digit after that could make it fit again. Up to there the number times ten, and one more digit, has
room in the 64 bits, so the count is always exact, however long the text is.

Results:
1. `Text.toNat_count`: one more digit does not wrap.
2. `Text.foldlM_countDigit?_eq_some_iff`: what has been counted after some digits.
3. `Text.readWord_exact`: the reader takes exactly the numerals of words.
-/

namespace Dungeon.Text

/-! ## One digit -/

theorem toNat_digit {c : UInt8} (hc : isDigit c = true) :
    (c - 48).toUInt64.toNat = digitValue c ∧ digitValue c < 10 := by
  obtain ⟨hlow, hhigh⟩ : 48 ≤ c ∧ c ≤ 57 := by simpa [isDigit] using hc
  have hle : c.toNat ≤ 57 := UInt8.le_iff_toNat_le.mp hhigh
  refine ⟨?_, by unfold digitValue; omega⟩
  rw [UInt8.toNat_toUInt64, UInt8.toNat_sub_of_le _ _ hlow]
  rfl

/-- The number and one more digit have room in 64 bits. -/
theorem toNat_count {n : UInt64} (hn : n.toNat < 2 ^ 32) {c : UInt8} (hc : isDigit c = true) :
    (n * 10 + (c - 48).toUInt64).toNat = 10 * n.toNat + digitValue c := by
  obtain ⟨hdigit, hlt⟩ := toNat_digit hc
  have hten : (n * 10).toNat = 10 * n.toNat := by
    rw [UInt64.toNat_mul, Nat.mul_comm]
    exact Nat.mod_eq_of_lt (by show 10 * n.toNat < 2 ^ 64; omega)
  rw [UInt64.toNat_add, hten, hdigit]
  exact Nat.mod_eq_of_lt (by omega)

/-- A digit is counted if the number still fits in a word. -/
theorem countDigit?_eq_some_iff {n m : UInt64} (hn : n.toNat < 2 ^ 32) {c : UInt8} :
    countDigit? n c = some m ↔
      isDigit c = true ∧ 10 * n.toNat + digitValue c = m.toNat ∧ m.toNat < 2 ^ 32 := by
  rw [countDigit?, Option.ite_none_right_eq_some]
  refine and_congr_right fun hc => ?_
  have hfits : n * 10 + (c - 48).toUInt64 ≤ 4294967295 ↔
      (n * 10 + (c - 48).toUInt64).toNat < 2 ^ 32 :=
    UInt64.le_iff_toNat_le.trans Nat.lt_succ_iff.symm
  rw [Option.ite_none_right_eq_some, Option.some.injEq, hfits, ← toNat_count hn hc,
    UInt64.toNat_inj]
  exact ⟨fun ⟨hlt, heq⟩ => ⟨heq, heq ▸ hlt⟩, fun ⟨heq, hlt⟩ => ⟨heq ▸ hlt, heq⟩⟩

/-! ## All digits -/

theorem placeValue_concat (digits : Text) (c : UInt8) :
    placeValue (digits ++ [c]) = 10 * placeValue digits + digitValue c := by
  rw [← natValue_eq_placeValue, natValue_concat, natValue_eq_placeValue]

theorem placeValue_zero_cons (t : Text) : placeValue (byte '0' :: t) = placeValue t := by
  rw [← natValue_eq_placeValue, ← natValue_eq_placeValue]
  rfl

theorem foldlM_countDigit?_concat (t : Text) (c : UInt8) :
    (t ++ [c]).foldlM countDigit? 0 = (t.foldlM countDigit? 0).bind (countDigit? · c) := by
  rw [List.foldlM_append]
  simp only [List.foldlM_cons, List.foldlM_nil, bind_pure]
  rfl

/-- What has been counted is the number that the digits so far stand for, and it fits in a word. -/
theorem foldlM_countDigit?_eq_some_iff {t : Text} {n : UInt64} :
    t.foldlM countDigit? 0 = some n ↔
      (∀ c ∈ t, isDigit c = true) ∧ placeValue t = n.toNat ∧ n.toNat < 2 ^ 32 := by
  induction t using List.reverseRecOn generalizing n with
  | nil =>
    constructor
    · rintro ⟨⟩
      exact ⟨List.forall_mem_nil _, rfl, by decide⟩
    · rintro ⟨-, hvalue, -⟩
      exact congrArg some (UInt64.toNat_inj.mp hvalue)
  | append_singleton t c ih =>
    rw [foldlM_countDigit?_concat, Option.bind_eq_some_iff, placeValue_concat]
    constructor
    · rintro ⟨m, hm, hn⟩
      obtain ⟨hall, hvalue, hlt⟩ := ih.mp hm
      obtain ⟨hc, hsum, hfits⟩ := (countDigit?_eq_some_iff hlt).mp hn
      rw [hvalue]
      exact ⟨List.forall_mem_append.mpr ⟨hall, List.forall_mem_singleton.mpr hc⟩, hsum, hfits⟩
    · rintro ⟨hall, hsum, hfits⟩
      obtain ⟨hall, hc⟩ := List.forall_mem_append.mp hall
      -- The number without its last digit is smaller, so the count has come to it.
      have hlt : placeValue t < 2 ^ 32 := by omega
      have hcount : (UInt64.ofNat (placeValue t)).toNat = placeValue t :=
        UInt64.toNat_ofNat_of_lt' (hlt.trans (by decide))
      rw [← hcount] at hsum hlt
      exact ⟨_, ih.mpr ⟨hall, hcount.symm, hlt⟩,
        (countDigit?_eq_some_iff hlt).mpr ⟨hc c List.mem_cons_self, hsum, hfits⟩⟩

/-! ## Whole texts -/

/-- One or more digits, and their number fits in 32 bits without a sign. -/
structure IsWordNumeral (t : Text) : Prop where
  some : t ≠ []
  digits : ∀ c ∈ t, isDigit c = true
  fits : placeValue t ≤ 4294967295

variable {t : Text}

theorem IsWordNumeral.readWord_eq (h : IsWordNumeral t) (word : UInt32) :
    readWord t word = (true, UInt32.ofNat (placeValue t)) := by
  have hcount : (UInt64.ofNat (placeValue t)).toNat = placeValue t :=
    UInt64.toNat_ofNat_of_lt' (h.fits.trans_lt (by decide))
  have hread : t.foldlM countDigit? 0 = Option.some (UInt64.ofNat (placeValue t)) :=
    foldlM_countDigit?_eq_some_iff.mpr
      ⟨h.digits, hcount.symm, hcount.trans_lt (Nat.lt_succ_of_le h.fits)⟩
  rw [readWord, if_neg h.some, hread]
  exact congrArg (Prod.mk true) (UInt64.toUInt32_ofNat' _)

theorem readWord_of_not_isWordNumeral (h : ¬ IsWordNumeral t) (word : UInt32) :
    readWord t word = (false, word) := by
  rw [readWord]
  split
  · rfl
  · next hne =>
    split
    · next n hread =>
      obtain ⟨hall, hvalue, hlt⟩ := foldlM_countDigit?_eq_some_iff.mp hread
      exact absurd ⟨hne, hall, by omega⟩ h
    · rfl

theorem readWord_fst_iff {word : UInt32} : (readWord t word).1 = true ↔ IsWordNumeral t := by
  by_cases h : IsWordNumeral t
  · exact iff_of_true (by rw [h.readWord_eq]) h
  · exact iff_of_false (by rw [readWord_of_not_isWordNumeral h]; exact Bool.false_ne_true) h

theorem IsWordNumeral.toNat_readWord (h : IsWordNumeral t) (word : UInt32) :
    (readWord t word).2.toNat = placeValue t := by
  rw [h.readWord_eq]
  exact UInt32.toNat_ofNat_of_lt' (Nat.lt_succ_of_le h.fits)

/-- Zeros in front make no difference. -/
theorem readWord_zero_cons (hne : t ≠ []) (word : UInt32) :
    readWord (byte '0' :: t) word = readWord t word := by
  have hiff : IsWordNumeral (byte '0' :: t) ↔ IsWordNumeral t := by
    constructor
    · intro h
      exact ⟨hne, (List.forall_mem_cons.mp h.digits).2, placeValue_zero_cons t ▸ h.fits⟩
    · intro h
      exact ⟨List.cons_ne_nil _ _, List.forall_mem_cons.mpr ⟨by decide, h.digits⟩,
        (placeValue_zero_cons t).trans_le h.fits⟩
  by_cases h : IsWordNumeral t
  · rw [h.readWord_eq, (hiff.mpr h).readWord_eq, placeValue_zero_cons]
  · rw [readWord_of_not_isWordNumeral h, readWord_of_not_isWordNumeral (hiff.not.mpr h)]

theorem readWord_zeros (hne : t ≠ []) (word : UInt32) (k : Nat) :
    readWord (List.replicate k (byte '0') ++ t) word = readWord t word := by
  induction k with
  | zero => rfl
  | succ k ih =>
    rw [List.replicate_succ, List.cons_append, readWord_zero_cons, ih]
    exact List.append_ne_nil_of_right_ne_nil _ hne

theorem readWord?_eq_some_iff {n word : UInt32} :
    readWord? t = some n ↔ readWord t word = (true, n) := by
  by_cases h : IsWordNumeral t
  · rw [readWord?, h.readWord_eq, h.readWord_eq, Prod.mk.injEq, Option.some.injEq]
    exact (and_iff_right rfl).symm
  · rw [readWord?, readWord_of_not_isWordNumeral h, readWord_of_not_isWordNumeral h, Prod.mk.injEq]
    exact iff_of_false (Option.some_ne_none n).symm fun hfalse => Bool.false_ne_true hfalse.1

theorem readWord?_eq_some_iff_value {n : UInt32} :
    readWord? t = some n ↔ IsWordNumeral t ∧ n.toNat = placeValue t := by
  rw [@readWord?_eq_some_iff t n 0]
  constructor
  · intro h
    have hnumeral : IsWordNumeral t := readWord_fst_iff.mp (congrArg Prod.fst h)
    exact ⟨hnumeral, by rw [← hnumeral.toNat_readWord 0, h]⟩
  · rintro ⟨hnumeral, hvalue⟩
    rw [hnumeral.readWord_eq, ← hvalue, UInt32.ofNat_toNat]

/-- Reading a word succeeds just on the numerals of words, and then gives their number; on any other
text the word handed over stays. Zeros in front make no difference. Whichever digit of the text the
count comes to, it has counted the digits before exactly, and one more digit does not wrap. -/
theorem readWord_exact (t : Text) (word : UInt32) :
    ((readWord t word).1 = true ↔ IsWordNumeral t) ∧
      ((readWord t word).1 = true → (readWord t word).2.toNat = placeValue t) ∧
      ((readWord t word).1 = false → (readWord t word).2 = word) ∧
      (∀ n, readWord? t = some n ↔ readWord t word = (true, n)) ∧
      (t ≠ [] → ∀ k, readWord (List.replicate k (byte '0') ++ t) word = readWord t word) ∧
      ∀ front c back n, t = front ++ c :: back → front.foldlM countDigit? 0 = some n →
        isDigit c = true →
          n.toNat = placeValue front ∧ 10 * n.toNat + digitValue c < 2 ^ 64 ∧
            (n * 10 + (c - 48).toUInt64).toNat = 10 * n.toNat + digitValue c := by
  refine ⟨readWord_fst_iff, fun h => (readWord_fst_iff.mp h).toNat_readWord word,
    fun hrefused => ?_, fun n => readWord?_eq_some_iff, fun hne => readWord_zeros hne word,
    fun front c back n _ hcount hc => ?_⟩
  · have hnot : ¬ IsWordNumeral t := fun h =>
      Bool.false_ne_true (hrefused.symm.trans (readWord_fst_iff.mpr h))
    rw [readWord_of_not_isWordNumeral hnot]
  · obtain ⟨-, hvalue, hlt⟩ := foldlM_countDigit?_eq_some_iff.mp hcount
    have hsum := toNat_count hlt hc
    exact ⟨hvalue.symm, hsum ▸ UInt64.toNat_lt _, hsum⟩

/-- The number after the greatest word is refused at its last digit, which is still counted exactly.
The greatest word is read, with thirty zeros in front. -/
theorem readWord_exact_greatest :
    let front : Text := "429496729"
    let greatest : Text := "4294967295"
    (front.foldlM countDigit? 0 = some 429496729 ∧ isDigit (byte '6') = true ∧
      ((429496729 : UInt64) * 10 + (byte '6' - 48).toUInt64).toNat = 4294967296 ∧
      (readWord (front ++ [byte '6']) 7).1 = false ∧ (readWord (front ++ [byte '6']) 7).2 = 7) ∧
      (readWord greatest 7).1 = true ∧ (readWord greatest 7).2.toNat = 4294967295 ∧
      readWord (List.replicate 30 (byte '0') ++ greatest) 7 = readWord greatest 7 := by
  intro front greatest
  have hcount : front.foldlM countDigit? 0 = some 429496729 := by decide
  have hrefused : (readWord (front ++ [byte '6']) 7).1 = false := by decide
  have haccepted : (readWord greatest 7).1 = true := by decide
  obtain ⟨-, -, hstays, -, -, hexact⟩ := readWord_exact (front ++ [byte '6']) 7
  obtain ⟨-, hvalue, -, -, hzeros, -⟩ := readWord_exact greatest 7
  obtain ⟨-, -, hsum⟩ := hexact front (byte '6') [] 429496729 rfl hcount (by decide)
  exact ⟨⟨hcount, by decide, hsum.trans (by decide), hrefused, hstays hrefused⟩, haccepted,
    (hvalue haccepted).trans (by decide), hzeros (by decide) 30⟩

end Dungeon.Text
