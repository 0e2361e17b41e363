/-!
# Binary numbers

Densities and difficulties are numbers of a binary format: a sign, an exponent and a fraction.
`Binary.datum` says what the bits stand for, as a whole count of a power of two, and
`Binary.round` gives the nearest number to a fraction, ties to the even neighbour. Every operation
computes the exact result on data and rounds once.

The codes of a format are ordered like the magnitudes they stand for: the least magnitude of the
next exponent has the code after the greatest of this one. So the code of a rounded count follows
by one addition, also where rounding carries into the next exponent.
-/

namespace Dungeon.Number

/-! ## Formats -/

/-- A binary format: the widths of its fraction and of its exponent. The sign takes one bit more. -/
structure Format where
  fraction : Nat
  exponent : Nat
  deriving DecidableEq, Repr

/-- Numbers of 32 bits. -/
def single : Format := ⟨23, 8⟩

/-- Numbers of 64 bits. -/
def double : Format := ⟨52, 11⟩

namespace Format

def width (f : Format) : Nat := f.fraction + f.exponent + 1

/-- The exponent of the unit in which the least magnitudes are counted. -/
def leastQuantum (f : Format) : Int := 2 - (Nat.pow 2 (f.exponent - 1) : Nat) - f.fraction

/-- The code of infinity. Lesser codes are finite magnitudes, greater ones are not numbers. -/
def infinityCode (f : Format) : Nat := (Nat.pow 2 f.exponent - 1) * Nat.pow 2 f.fraction

/-- The magnitude of a finite code: a count and the exponent of its unit. -/
def magnitude (f : Format) (code : Nat) : Nat × Int :=
  let field := code / Nat.pow 2 f.fraction
  let low := code % Nat.pow 2 f.fraction
  if field = 0 then (low, f.leastQuantum)
  else (Nat.pow 2 f.fraction + low, f.leastQuantum + (field - 1 : Nat))

end Format

/-! ## Fractions -/

/-- The fraction `count * 2 ^ quantum`, with a positive denominator. -/
def fractionOf (count : Nat) (quantum : Int) : Nat × Nat :=
  (count * Nat.pow 2 quantum.toNat, Nat.pow 2 (-quantum).toNat)

/-- The whole number nearest to a fraction, the even one of two. -/
def roundHalfEven (num den : Nat) : Nat :=
  let whole := num / den
  let twice := 2 * (num % den)
  if twice < den then whole
  else if den < twice then whole + 1
  else whole + whole % 2

/-- The whole number at or above a fraction. -/
def ceilDiv (num den : Nat) : Nat := (num + den - 1) / den

/-- The greatest `k` with `2 ^ k` at most the fraction, for positive `num` and `den`. -/
def binaryExponent (num den : Nat) : Int :=
  let guess : Int := (num.log2 : Int) - den.log2
  if den * Nat.pow 2 guess.toNat ≤ num * Nat.pow 2 (-guess).toNat then guess else guess - 1

/-- The code of the magnitude nearest to a fraction; infinity if that is too great. -/
def Format.roundCode (f : Format) (num den : Nat) : Nat :=
  if num = 0 then 0
  else
    let quantum := max f.leastQuantum (binaryExponent num den - f.fraction)
    let count := roundHalfEven (num * Nat.pow 2 (-quantum).toNat) (den * Nat.pow 2 quantum.toNat)
    min ((quantum - f.leastQuantum).toNat * Nat.pow 2 f.fraction + count) f.infinityCode

/-! ## Data -/

/-- What the bits of a number stand for. -/
inductive Datum where
  | notANumber (negative : Bool)
  | infinite (negative : Bool)
  | finite (negative : Bool) (count : Nat) (quantum : Int)
  deriving DecidableEq, Repr

namespace Datum

/-- The exact product of two data. Infinity times zero is no number. -/
def mul : Datum → Datum → Datum
  | .notANumber s, _ => .notANumber s
  | _, .notANumber s => .notANumber s
  | .infinite s, .infinite t => .infinite (s != t)
  | .infinite s, .finite t count _ =>
      if count = 0 then .notANumber true else .infinite (s != t)
  | .finite s count _, .infinite t =>
      if count = 0 then .notANumber true else .infinite (s != t)
  | .finite s a p, .finite t b q => .finite (s != t) (a * b) (p + q)

/-- A count with its sign, in units of `2 ^ unit`. The unit is at most the quantum. -/
def signedCount (negative : Bool) (count : Nat) (quantum unit : Int) : Int :=
  let n : Int := (count * Nat.pow 2 (quantum - unit).toNat : Nat)
  if negative then -n else n

/-- The exact sum of two data. A sum of zero is positive unless both parts are negative. -/
def add : Datum → Datum → Datum
  | .notANumber s, _ => .notANumber s
  | _, .notANumber s => .notANumber s
  | .infinite s, .infinite t => if s = t then .infinite s else .notANumber true
  | .infinite s, .finite .. => .infinite s
  | .finite .., .infinite t => .infinite t
  | .finite s a p, .finite t b q =>
      let unit := min p q
      let sum := signedCount s a p unit + signedCount t b q unit
      .finite (if sum = 0 then s && t else decide (sum < 0)) sum.natAbs unit

/-- How many of the `2 ^ 32` words, taken as fractions of `2 ^ 32`, lie below a datum. -/
def wordsBelow : Datum → Nat
  | .finite false count quantum =>
      let (num, den) := fractionOf count (quantum + 32)
      min (ceilDiv num den) UInt32.size
  | .infinite false => UInt32.size
  | _ => 0

end Datum

/-! ## Numbers -/

/-- A number of a format, as its bits. -/
structure Binary (f : Format) where
  bits : BitVec f.width
  deriving DecidableEq, Repr

abbrev Single := Binary single

abbrev Double := Binary double

namespace Binary

variable {f : Format}

/-- The bits without the sign. -/
def code (x : Binary f) : Nat := x.bits.toNat % Nat.pow 2 (f.fraction + f.exponent)

def isNegative (x : Binary f) : Bool := x.bits.msb

def ofCode (f : Format) (negative : Bool) (code : Nat) : Binary f :=
  ⟨BitVec.ofNat f.width (code + if negative then Nat.pow 2 (f.fraction + f.exponent) else 0)⟩

def datum (x : Binary f) : Datum :=
  if x.code < f.infinityCode then
    let (count, quantum) := f.magnitude x.code
    .finite x.isNegative count quantum
  else if x.code = f.infinityCode then .infinite x.isNegative
  else .notANumber x.isNegative

def infinity (f : Format) (negative : Bool) : Binary f := ofCode f negative f.infinityCode

/-- The number that is none, with the first bit of its fraction set. -/
def notANumber (f : Format) (negative : Bool) : Binary f :=
  ofCode f negative (f.infinityCode + Nat.pow 2 (f.fraction - 1))

/-- The number nearest to a fraction. -/
def round (f : Format) (negative : Bool) (num den : Nat) : Binary f :=
  ofCode f negative (f.roundCode num den)

/-- The number nearest to a datum. -/
def ofDatum (f : Format) : Datum → Binary f
  | .notANumber negative => notANumber f negative
  | .infinite negative => infinity f negative
  | .finite negative count quantum =>
      let (num, den) := fractionOf count quantum
      round f negative num den

/-- The number nearest to a whole number. -/
def ofInt (f : Format) (n : Int) : Binary f := round f (decide (n < 0)) n.natAbs 1

/-- The nearest number of another format. -/
def convert (g : Format) (x : Binary f) : Binary g := ofDatum g x.datum

/-! ## Arithmetic and probabilities -/

instance : Mul (Binary f) := ⟨fun x y => ofDatum f (Datum.mul x.datum y.datum)⟩

instance : Add (Binary f) := ⟨fun x y => ofDatum f (Datum.add x.datum y.datum)⟩

/-- The number lies between 0 and 1. Both zeros do. -/
def inUnit (x : Binary f) : Bool :=
  match x.datum with
  | .finite negative count quantum =>
      let (num, den) := fractionOf count quantum
      count == 0 || (!negative && decide (num ≤ den))
  | _ => false

/-- The number nearest to so many hundredths. -/
def percent (n : Nat) : Single := round single false n 100

/-- The fraction `word / 2 ^ 32`, which every word gives exactly. -/
def ofWord (word : UInt32) : Double := round double false word.toNat UInt32.size

end Binary
end Dungeon.Number
