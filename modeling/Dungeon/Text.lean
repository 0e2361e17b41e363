/-!
# Text

Names, settings files and everything printed are lists of bytes. No encoding is assumed: bytes from
0x80 up are carried along and belong to no class.

The classes know ASCII only. Blank bytes are the space and the five bytes from tab to carriage
return.
-/

namespace Dungeon

/-- A text is the list of its bytes. -/
abbrev Text := List UInt8

namespace Text

/-- The bytes of a string literal. -/
def lit (s : String) : Text := s.toUTF8.data.toList

instance : Coe String Text := ⟨lit⟩

/-- The byte of an ASCII character. -/
def byte (c : Char) : UInt8 := c.toUInt8

/-- The byte that ends a line. -/
def newline : UInt8 := byte '\n'

/-! ## Byte classes -/

def isBlank (c : UInt8) : Bool := c == 32 || (9 ≤ c && c ≤ 13)

def isDigit (c : UInt8) : Bool := 48 ≤ c && c ≤ 57

def isUpper (c : UInt8) : Bool := 65 ≤ c && c ≤ 90

def isLower (c : UInt8) : Bool := 97 ≤ c && c ≤ 122

def isLetter (c : UInt8) : Bool := isUpper c || isLower c

def isAlphanumeric (c : UInt8) : Bool := isLetter c || isDigit c

def lowerByte (c : UInt8) : UInt8 := if isUpper c then c + 32 else c

def upperByte (c : UInt8) : UInt8 := if isLower c then c - 32 else c

/-! ## Whole texts -/

/-- Upper-case ASCII letters become lower-case ones; nothing else changes. -/
def lower (t : Text) : Text := t.map lowerByte

/-- The first byte in upper case. -/
def capitalized : Text → Text
  | [] => []
  | c :: rest => upperByte c :: rest

/-- The text without the bytes of a class at its two ends. -/
def strip (drop : UInt8 → Bool) (t : Text) : Text :=
  ((t.dropWhile drop).reverse.dropWhile drop).reverse

/-- The text without blanks at its two ends. -/
def trim (t : Text) : Text := strip isBlank t

/-- The lines of a text. A newline ends a line, so a text that ends with one has no empty line
after it. -/
def lines : Text → List Text
  | [] => []
  | c :: rest =>
      if c = newline then [] :: lines rest
      else
        match lines rest with
        | [] => [[c]]
        | line :: more => (c :: line) :: more

/-- Every line followed by a newline. -/
def unlines (rows : List Text) : Text := rows.flatMap fun row => row ++ [newline]

/-- The texts with `separator` between neighbours. -/
def join (separator : Text) : List Text → Text
  | [] => []
  | [last] => last
  | first :: rest => first ++ separator ++ join separator rest

/-- The part before the first byte of a class. -/
def before (stop : UInt8 → Bool) (t : Text) : Text := t.takeWhile fun c => !stop c

/-- The parts before and after the first `mark`, if there is one. -/
def splitAt? (mark : UInt8) (t : Text) : Option (Text × Text) :=
  match t.dropWhile (· != mark) with
  | [] => none
  | _ :: rest => some (t.takeWhile (· != mark), rest)

/-- The parts between the marks. There is one part more than there are marks. -/
def split (mark : UInt8) : Text → List Text
  | [] => [[]]
  | c :: rest =>
      if c = mark then [] :: split mark rest
      else
        match split mark rest with
        | [] => [[c]]
        | part :: more => (c :: part) :: more

/-- The text after a leading `head`, if it starts with it. -/
def after? : Text → Text → Option Text
  | [], t => some t
  | _ :: _, [] => none
  | h :: head, c :: t => if h = c then after? head t else none

end Text
end Dungeon
