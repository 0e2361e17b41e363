import Dungeon.Text

/-!
# Whole numbers in text

Integers are written in decimal without leading zeros, a minus sign in front of negative ones.
They are read from an optional sign and one or more digits, with nothing else around them.
-/

namespace Dungeon.Text

def digitByte (d : Nat) : UInt8 := UInt8.ofNat (48 + d)

def digitValue (c : UInt8) : Nat := c.toNat - 48

/-- The decimal digits of `n`, least significant first, as long as `steps` lasts. -/
def digitsRev : Nat → Nat → List Nat
  | 0, _ => []
  | steps + 1, n => if n < 10 then [n] else n % 10 :: digitsRev steps (n / 10)

/-- A number in decimal. It has at most `n + 1` digits. -/
def ofNat (n : Nat) : Text := (digitsRev (n + 1) n).reverse.map digitByte

def ofInt : Int → Text
  | .ofNat n => ofNat n
  | .negSucc n => lit "-" ++ ofNat (n + 1)

/-- The value of a list of digits, most significant first. -/
def natValue (digits : Text) : Nat := digits.foldl (fun n c => 10 * n + digitValue c) 0

/-- Reads one or more digits, and nothing else. -/
def readNat? (t : Text) : Option Nat :=
  if t ≠ [] ∧ t.all isDigit then some (natValue t) else none

/-- The sign in front of a number and the text after it; `true` stands for minus. -/
def splitSign : Text → Bool × Text
  | [] => (false, [])
  | c :: rest =>
      if c = byte '+' then (false, rest)
      else if c = byte '-' then (true, rest)
      else (false, c :: rest)

/-- Reads an optional sign and one or more digits, and nothing else. -/
def readInt? (t : Text) : Option Int :=
  let (negative, digits) := splitSign t
  (readNat? digits).map fun n => if negative then -(n : Int) else n

/-- The whole numbers that fit in 32 bits with a sign. -/
def Fits32 (n : Int) : Prop := -2147483648 ≤ n ∧ n ≤ 2147483647

instance (n : Int) : Decidable (Fits32 n) := inferInstanceAs (Decidable (_ ∧ _))

/-- Reads a whole number that fits in 32 bits with a sign. -/
def readInt32? (t : Text) : Option Int := (readInt? t).filter fun n => decide (Fits32 n)

/-- A number with one more digit, counted up in 64 bits and only as long as it fits in a word. -/
def countDigit? (n : UInt64) (c : UInt8) : Option UInt64 :=
  if isDigit c then
    let more := n * 10 + (c - 48).toUInt64
    if more ≤ 4294967295 then some more else none
  else none

/-- Reads a whole number of 32 bits without a sign, for a caller who hands over a word. The word
stays if there is no such number to read. -/
def readWord (t : Text) (word : UInt32) : Bool × UInt32 :=
  if t = [] then (false, word)
  else
    match t.foldlM countDigit? 0 with
    | some n => (true, n.toUInt32)
    | none => (false, word)

/-- Reads a whole number of 32 bits without a sign. -/
def readWord? (t : Text) : Option UInt32 :=
  match readWord t 0 with
  | (true, n) => some n
  | (false, _) => none

end Dungeon.Text
