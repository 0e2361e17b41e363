import Dungeon.Number
import Dungeon.Text.Decimal

/-!
# Writing numbers

Numbers are written with six significant digits, the nearest such decimal to the exact value, ties
to the even digit. Trailing zeros are dropped. Leading digits from the fourth place after the point
up to the hundred thousands are written positionally, others with an exponent of at least two
digits and its sign.
-/

namespace Dungeon.Number

open Text (byte)

/-- How many decimal digits a positive number has. -/
def digitCount (n : Nat) : Nat := (Text.digitsRev (n + 1) n).length

/-- The greatest `k` with `10 ^ k` at most the fraction, for positive `num` and `den`. -/
def decimalExponent (num den : Nat) : Int :=
  let guess : Int := (digitCount num : Int) - digitCount den
  if den * Nat.pow 10 guess.toNat ≤ num * Nat.pow 10 (-guess).toNat then guess else guess - 1

/-- Six digits and the decimal exponent of the first of them. -/
def sixDigits (num den : Nat) : Nat × Int :=
  let e := decimalExponent num den
  let shift := 5 - e
  let digits := roundHalfEven (num * Nat.pow 10 shift.toNat) (den * Nat.pow 10 (-shift).toNat)
  if digits = 1000000 then (100000, e + 1) else (digits, e)

/-- The digits without the zeros at their end. -/
def dropZeros (digits : Text) : Text := (digits.reverse.dropWhile (· == byte '0')).reverse

/-- The digits after the point, if any are left. -/
def pointed (digits : Text) : Text :=
  match dropZeros digits with
  | [] => []
  | rest => byte '.' :: rest

/-- An exponent with its sign and at least two digits. -/
def exponentText (e : Int) : Text :=
  let digits := Text.ofNat e.natAbs
  (if e < 0 then "e-" else "e+") ++ List.replicate (2 - digits.length) (byte '0') ++ digits

/-- Six digits laid out around their point. -/
def layOut (digits : Text) (e : Int) : Text :=
  if e < -4 ∨ 6 ≤ e then digits.take 1 ++ pointed (digits.drop 1) ++ exponentText e
  else if e < 0 then "0" ++ pointed (List.replicate (-e - 1).toNat (byte '0') ++ digits)
  else digits.take (e + 1).toNat ++ pointed (digits.drop (e + 1).toNat)

/-- The text of a fraction. -/
def fractionText (num den : Nat) : Text :=
  if num = 0 then "0"
  else
    let (digits, e) := sixDigits num den
    layOut (Text.ofNat digits) e

def signText (negative : Bool) : Text := if negative then "-" else ""

/-- The text of a number. -/
def Binary.toText {f : Format} (x : Binary f) : Text :=
  match x.datum with
  | .notANumber negative => signText negative ++ "nan"
  | .infinite negative => signText negative ++ "inf"
  | .finite negative count quantum =>
      let (num, den) := fractionOf count quantum
      signText negative ++ fractionText num den

end Dungeon.Number
