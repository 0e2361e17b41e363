import Mathlib.Algebra.Ring.Parity
import Mathlib.Data.List.DropRight
import Dungeon.Proofs.JsonReader

/-!
# Escaped texts

Inside a string a quote belongs to the text just if an odd number of backslashes stands in front of
it: the backslashes are read in pairs, and the one that is left over escapes the quote. Every byte
is written with an even number of backslashes at the end, so what follows it is read as if it came
first.

Results:
1. `Json.le_of_mem_escape`: no control byte is left.
2. `Json.odd_of_escape_eq`: every quote is escaped.
3. `Json.even_escape`: nothing escapes the quote that closes the string.
4. `Json.escape_lossless`: the text comes back, from the string alone and with more after it.
-/

namespace Dungeon.Json

open Text (byte)

/-- How many backslashes stand in a row at the end of the text. -/
def lastBackslashes (t : Text) : Nat := (t.rtakeWhile (· == backslash)).length

theorem lastBackslashes_concat (t : Text) (c : UInt8) :
    lastBackslashes (t ++ [c]) = if c = backslash then lastBackslashes t + 1 else 0 := by
  rw [lastBackslashes, List.rtakeWhile_concat]
  simp only [beq_iff_eq]
  split
  · exact List.length_append
  · rfl

theorem even_lastBackslashes_concat {c : UInt8} (hc : c ≠ backslash) (t : Text) :
    Even (lastBackslashes (t ++ [c])) := by
  rw [lastBackslashes_concat, if_neg hc]
  exact Even.zero

/-- Pairs of backslashes escape nothing after them. -/
theorem even_lastBackslashes_append {s : Text} (hs : Even (lastBackslashes s)) (t : Text) :
    Even (lastBackslashes (s ++ t)) ↔ Even (lastBackslashes t) := by
  induction t using List.reverseRecOn with
  | nil => rw [List.append_nil]; exact iff_of_true hs Even.zero
  | append_singleton t c ih =>
    rw [← List.append_assoc, lastBackslashes_concat, lastBackslashes_concat]
    split
    · rw [Nat.even_add_one, Nat.even_add_one, ih]
    · rfl

/-! ## Single bytes -/

theorem le_of_named? {d c : UInt8} (h : named? d = some c) : 32 ≤ d := by
  by_contra hlt
  have hnone : ∀ n < 32, named? (UInt8.ofNat n) = none := by decide
  have hd := hnone d.toNat (UInt8.lt_iff_toNat_lt.mp (UInt8.not_le.mp hlt))
  rw [UInt8.ofNat_toNat, h] at hd
  cases hd

theorem le_hexDigit {n : Nat} (h : n < 16) : 32 ≤ hexDigit n := by
  have hall : ∀ n < 16, 32 ≤ hexDigit n := by decide
  exact hall n h

theorem le_of_mem_escapeByte {c d : UInt8} (h : d ∈ escapeByte c) : 32 ≤ d := by
  have hc := escaping c
  generalize escapeByte c = written at hc h
  cases hc with
  | named e _ hname =>
    rcases List.mem_pair.mp h with rfl | rfl
    · decide
    · exact le_of_named? hname
  | digits hc =>
    have hhigh := le_hexDigit (hexDigits_lt c).1
    have hlow := le_hexDigit (hexDigits_lt c).2
    simp only [List.mem_cons, List.not_mem_nil, or_false] at h
    rcases h with rfl | rfl | rfl | rfl | rfl | rfl
    · decide
    · decide
    · decide
    · decide
    · exact hhigh
    · exact hlow
  | plain hc _ =>
    rw [List.mem_singleton.mp h]
    exact UInt8.not_lt.mp fun hlt => hc (.inl hlt)

/-- The backslashes at the end of a written byte are a pair, if there are any. -/
theorem even_escapeByte (c : UInt8) : Even (lastBackslashes (escapeByte c)) := by
  have hc := escaping c
  generalize escapeByte c = written at hc
  cases hc with
  | named d _ _ =>
    by_cases hd : d = backslash
    · rw [hd]
      decide
    · exact even_lastBackslashes_concat hd [backslash]
  | digits _ =>
    have hlow := hexDigit_ne (hexDigits_lt c).2
    exact even_lastBackslashes_concat hlow.2
      [backslash, byte 'u', byte '0', byte '0', hexDigit (c.toNat / 16)]
  | plain _ hb => exact even_lastBackslashes_concat hb []

/-- A quote is only written behind one backslash. -/
theorem eq_of_escapeByte_eq {c : UInt8} {front back : Text}
    (h : escapeByte c = front ++ quote :: back) : front = [backslash] := by
  have hc := escaping c
  generalize escapeByte c = written at hc h
  have hmem : quote ∈ written := h ▸ List.mem_append_right front List.mem_cons_self
  cases hc with
  | named d _ _ =>
    match front with
    | [] => exact absurd (List.cons.inj h).1 (by decide)
    | [b] => rw [(List.cons.inj h).1]
    | b :: e :: more =>
      have hlength := congrArg List.length h
      simp only [List.length_append, List.length_cons, List.length_nil] at hlength
      omega
  | digits _ =>
    have hhigh := hexDigit_ne (hexDigits_lt c).1
    have hlow := hexDigit_ne (hexDigits_lt c).2
    have hnone : quote ∉ [backslash, byte 'u', byte '0', byte '0'] := by decide
    simp only [List.mem_cons, List.not_mem_nil, or_false, not_or] at hmem hnone
    exact absurd hmem (by simp only [hnone, hhigh.1.symm, hlow.1.symm, or_self, not_false_eq_true])
  | plain hc _ => exact absurd (.inr (List.mem_singleton.mp hmem).symm) hc

/-! ## Whole texts -/

theorem le_of_mem_escape {t : Text} {d : UInt8} (h : d ∈ escape t) : 32 ≤ d := by
  obtain ⟨c, _, hd⟩ := List.mem_flatMap.mp h
  exact le_of_mem_escapeByte hd

theorem even_escape (t : Text) : Even (lastBackslashes (escape t)) := by
  induction t with
  | nil => exact Even.zero
  | cons c t ih => exact (even_lastBackslashes_append (even_escapeByte c) (escape t)).mpr ih

/-- Whichever byte a quote comes from, the backslashes of the bytes before it are pairs. -/
theorem odd_of_escape_eq {t front back : Text} (h : escape t = front ++ quote :: back) :
    Odd (lastBackslashes front) := by
  induction t generalizing front with
  | nil => exact absurd h.symm (List.append_ne_nil_of_right_ne_nil front (List.cons_ne_nil _ _))
  | cons c t ih =>
    have hsplit : escapeByte c ++ escape t = front ++ quote :: back := h
    rcases List.append_eq_append_iff.mp hsplit with ⟨more, rfl, hmore⟩ | ⟨more, hbyte, hmore⟩
    · rw [← Nat.not_even_iff_odd, even_lastBackslashes_append (even_escapeByte c),
        Nat.not_even_iff_odd]
      exact ih hmore
    · cases more with
      | nil =>
        -- The quote would come first in what is left, with nothing to escape it.
        exact absurd (@ih [] hmore.symm) (by decide)
      | cons d more =>
        obtain ⟨rfl, -⟩ := List.cons.inj hmore
        rw [eq_of_escapeByte_eq hbyte]
        decide

theorem escape_injective : Function.Injective escape := by
  intro s t h
  have hboth : some s = some t := by rw [← unescape?_escape s, ← unescape?_escape t, h]
  exact Option.some.inj hboth

/-- What is written between the quotes for a text holds no control byte, and no quote that is not
escaped, nor does it escape the quote behind it. Reading it gives the text back, so no two texts are
written alike, and a string ends where its text does, whatever comes after. -/
theorem escape_lossless (t : Text) :
    (∀ c ∈ escape t, 32 ≤ c) ∧
      (∀ front back, escape t = front ++ quote :: back → Odd (lastBackslashes front)) ∧
      Even (lastBackslashes (escape t)) ∧
      unescape? (escape t) = some t ∧
      (∀ other, escape other = escape t → other = t) ∧
      ∀ rest, body? (escape t ++ quote :: rest) = some (escape t, rest) :=
  ⟨fun _ => le_of_mem_escape, fun _ _ => odd_of_escape_eq, even_escape t, unescape?_escape t,
    fun _ h => escape_injective h, body?_escape t⟩

/-- Two backslashes and a quote in a row, control bytes with and without a name, a letter that could
be taken for an escape, and a byte beyond ASCII. -/
theorem escape_lossless_mixed :
    let t : Text := [92, 92, 34, 31, 10, 117, 200]
    let front : Text := "\\\\\\\\\\"
    escape t = front ++ quote :: (Text.lit "\\u001f\\nu" ++ [200]) ∧
      (31 : UInt8) ∉ escape t ∧ Odd (lastBackslashes front) ∧
      unescape? (escape t) = some t ∧ escape t ≠ escape [92, 92, 34, 31, 10, 117] ∧
      body? (escape t ++ [quote, byte ',']) = some (escape t, [byte ',']) := by
  intro t front
  have hwritten : escape t = front ++ quote :: (Text.lit "\\u001f\\nu" ++ [200]) := by decide
  obtain ⟨hplain, hquotes, -, hback, hsame, hends⟩ := escape_lossless t
  refine ⟨hwritten, fun hmem => ?_, hquotes _ _ hwritten, hback, fun heq => ?_, hends _⟩
  · exact absurd (hplain _ hmem) (by decide)
  · exact absurd (hsame _ heq.symm) (by decide)

end Dungeon.Json
