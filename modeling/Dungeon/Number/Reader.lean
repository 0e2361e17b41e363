import Dungeon.Number
import Dungeon.Text.Decimal

/-!
# Reading numbers

A written number is a sign and then one of four forms, in letters of either case: decimal digits,
hexadecimal digits after `0x`, the name of infinity, or the name of a value that is no number. The
digits may hold one point and may end in an exponent, of ten or of two.

A number is read straight into its format, rounded once. It is refused when it is too great for the
format, and when it falls below the least normal magnitude and is not met exactly there. Below the
least normal magnitude one bit is overlooked, though, the one right after the precision of the
format: it neither counts in rounding nor makes a number inexact.
-/

namespace Dungeon.Number

open Text (byte)

/-- A number as written, without its sign. -/
inductive Numeral where
  | notANumber
  | infinite
  | scaled (mantissa base : Nat) (exponent : Int)
  deriving DecidableEq, Repr

/-- How digits are written: their base, the letter before the exponent, the base of the exponent
and the powers of it that one digit is worth. -/
structure Radix where
  digit? : UInt8 → Option Nat
  base : Nat
  mark : UInt8
  scale : Nat
  places : Nat

namespace Radix

def decimalDigit? (c : UInt8) : Option Nat :=
  if Text.isDigit c then some (Text.digitValue c) else none

/-- Digits up to `f`, in lower case. -/
def hexDigit? (c : UInt8) : Option Nat :=
  if byte 'a' ≤ c ∧ c ≤ byte 'f' then some (c.toNat - (byte 'a').toNat + 10) else decimalDigit? c

def decimal : Radix := ⟨decimalDigit?, 10, byte 'e', 10, 1⟩

def hexadecimal : Radix := ⟨hexDigit?, 16, byte 'p', 2, 4⟩

/-- The value of one or more digits. -/
def value? (r : Radix) (digits : Text) : Option Nat :=
  match digits.mapM r.digit? with
  | none | some [] => none
  | some ds => some (ds.foldl (fun n d => r.base * n + d) 0)

/-- Digits with at most one point among them, and perhaps an exponent. -/
def read? (r : Radix) (t : Text) : Option Numeral := do
  let (body, exponent) ←
    match Text.splitAt? r.mark t with
    | none => some (t, 0)
    | some (body, power) => (Text.readInt? power).map fun e => (body, e)
  let (whole, part) := (Text.splitAt? (byte '.') body).getD (body, [])
  let mantissa ← r.value? (whole ++ part)
  some (.scaled mantissa r.scale (exponent - r.places * part.length))

end Radix

/-- The name of a value that is no number, perhaps with a note of letters, digits and underscores
in brackets. -/
def isNotANumber (t : Text) : Bool :=
  t == Text.lit "nan" ||
    match Text.after? "nan(" t with
    | none => false
    | some note =>
        note.getLast? == some (byte ')') &&
          note.dropLast.all fun c => Text.isAlphanumeric c || c == byte '_'

/-- Reads a number in lower case, without its sign. -/
def Numeral.read? (t : Text) : Option Numeral :=
  if t = Text.lit "inf" ∨ t = Text.lit "infinity" then some .infinite
  else if isNotANumber t then some .notANumber
  else
    match Text.after? "0x" t with
    | some digits => Radix.hexadecimal.read? digits
    | none => Radix.decimal.read? t

/-- The fraction `mantissa * base ^ exponent`. Exponents that put it beyond `2 ^ 2000` or below
`2 ^ -2000`, far outside every format, are cut back to ones that do so too. -/
def scaledFraction (mantissa base : Nat) (exponent : Int) : Nat × Nat :=
  let least : Int := -(mantissa.log2 + 2001 : Nat)
  let e := min 2000 (max least exponent)
  (mantissa * Nat.pow base e.toNat, Nat.pow base (-e).toNat)

namespace Format

/-- Rounded to the precision of the format alone, the fraction stays below the least normal
magnitude. -/
def isTiny (f : Format) (num den : Nat) : Bool :=
  let (n, d) := fractionOf (Nat.pow 2 (f.fraction + 2) - 1) (f.leastQuantum - 2)
  decide (num * d < n * den)

/-- The fraction is the magnitude of a finite code. -/
def isExact (f : Format) (code num den : Nat) : Bool :=
  let (count, quantum) := f.magnitude code
  let (n, d) := fractionOf count quantum
  decide (num * d = n * den)

/-- The place of the guard bit of a fraction, the first one that the precision of the format leaves
out. -/
def guardPlace (f : Format) (num den : Nat) : Int := binaryExponent num den - f.fraction - 1

/-- The guard bit at a place is overlooked: it belongs to a fraction below the least normal
magnitude. Decimal digits give no bits below a quarter of the least magnitude, so what they leave
there is not overlooked. -/
def overlooksGuard (f : Format) (base : Nat) (place : Int) : Bool :=
  decide (place < f.leastQuantum - 1) && (base != 10 || decide (f.leastQuantum - 2 ≤ place))

/-- The fraction without its bit at a place. -/
def withoutBit (place : Int) (num den : Nat) : Nat × Nat :=
  let up := Nat.pow 2 (-place).toNat
  let down := Nat.pow 2 place.toNat
  let (n, d) := (num * up, den * down)
  if n / d % 2 = 0 then (num, den) else ((n - d) * down, d * up)

/-- The code that a fraction is read as, if it is in the range of the format: the one nearest to
what is not overlooked of it. -/
def readCode? (f : Format) (base num den : Nat) : Option Nat :=
  let place := f.guardPlace num den
  let (n, d) := if f.overlooksGuard base place then withoutBit place num den else (num, den)
  let code := f.roundCode n d
  if code = f.infinityCode then none
  else if f.isTiny num den && !f.isExact code n d then none
  else some code

end Format

/-- Reads a number of a format, and nothing else around it. -/
def Binary.read? (f : Format) (t : Text) : Option (Binary f) :=
  let (negative, body) := Text.splitSign t
  match Numeral.read? (Text.lower body) with
  | none => none
  | some .notANumber => some (notANumber f negative)
  | some .infinite => some (infinity f negative)
  | some (.scaled mantissa base exponent) =>
      let (num, den) := scaledFraction mantissa base exponent
      (f.readCode? base num den).map (ofCode f negative)

end Dungeon.Number
