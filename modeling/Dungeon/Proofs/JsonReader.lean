import Mathlib.Algebra.Field.Rat
import Mathlib.Data.List.Forall2
import Dungeon.Export.Json
import Dungeon.Proofs.Cutting
import Dungeon.Proofs.Decimal

/-!
# Reading JSON

A strict reader of JSON over bytes, in two stages: a text is cut into tokens, and the tokens are put
together to one value. The first stage knows blanks, escapes and the spelling of numbers, the second
one brackets and commas.

Results:
1. `Json.made_of_number?`: a number is one word, so it ends where a sign or a blank follows.
2. `Json.number?_ofInt`: a whole number is read back.
3. `Json.unescape?_escape`: an escaped text is read back byte for byte.
4. `Json.body?_escape`: an escaped text does not close its string.
-/

namespace Dungeon.Json

open Text (byte isDigit)

/-- A JSON value. A number is what its text stands for, so `1` and `1.0` are the same. -/
inductive Value where
  | null
  | bool (b : Bool)
  | number (x : Rat)
  | string (t : Text)
  | array (items : List Value)
  | object (members : List (Text × Value))

/-! ## Numbers -/

/-- One or more digits without a zero in front of others. -/
def whole? (t : Text) : Option Nat :=
  if t.head? = some (byte '0') ∧ t ≠ [byte '0'] then none else Text.readNat? t

/-- A whole number, or one with a point and digits after it. -/
def fixed? (t : Text) : Option Rat :=
  match Text.splitAt? (byte '.') t with
  | none => (whole? t).map fun (n : Nat) => (n : Rat)
  | some (whole, fraction) =>
      (whole? whole).bind fun (n : Nat) => (Text.readNat? fraction).map fun (k : Nat) =>
        (n : Rat) + k / (10 : Rat) ^ fraction.length

def isExponentMark (c : UInt8) : Bool := c == byte 'e' || c == byte 'E'

/-- A number without its minus sign: the part before the exponent, and the exponent if there is one.
-/
def unsigned? (t : Text) : Option Rat :=
  (fixed? (t.takeWhile (!isExponentMark ·))).bind fun x =>
    match t.dropWhile (!isExponentMark ·) with
    | [] => some x
    | _ :: exponent => (Text.readInt? exponent).map fun (e : Int) => x * (10 : Rat) ^ e

/-- The number that a text stands for. -/
def number? (t : Text) : Option Rat :=
  if t.head? = some (byte '-') then (unsigned? t.tail).map (- ·) else unsigned? t

/-! ## Strings -/

/-- A piece of a string: a byte as it is, or a unit of sixteen bits given by its digits. -/
inductive Piece where
  | plain (c : UInt8)
  | unit (n : Nat)

def hexValue? (c : UInt8) : Option Nat :=
  if isDigit c then some (Text.digitValue c)
  else if byte 'a' ≤ c ∧ c ≤ byte 'f' then some (c.toNat - 87)
  else if byte 'A' ≤ c ∧ c ≤ byte 'F' then some (c.toNat - 55)
  else none

/-- The unit of four hexadecimal digits. -/
def unit? (h₁ h₂ h₃ h₄ : UInt8) : Option Nat :=
  (hexValue? h₁).bind fun a => (hexValue? h₂).bind fun b =>
    (hexValue? h₃).bind fun c => (hexValue? h₄).map fun d => 4096 * a + 256 * b + 16 * c + d

/-- The byte that a backslash and a letter or sign stand for. -/
def named? (c : UInt8) : Option UInt8 :=
  if c = quote ∨ c = backslash ∨ c = byte '/' then some c
  else if c = byte 'b' then some 8
  else if c = byte 'f' then some 12
  else if c = byte 'n' then some (byte '\n')
  else if c = byte 'r' then some (byte '\r')
  else if c = byte 't' then some (byte '\t')
  else none

/-- The pieces of what stands between the quotes. Control bytes and quotes have to be escaped. -/
def pieces? : Text → Option (List Piece)
  | [] => some []
  | c :: rest =>
      if c = backslash then
        match rest with
        | [] => none
        | d :: rest =>
            if d = byte 'u' then
              match rest with
              | h₁ :: h₂ :: h₃ :: h₄ :: rest =>
                  (unit? h₁ h₂ h₃ h₄).bind fun n => (pieces? rest).map (.unit n :: ·)
              | _ => none
            else (named? d).bind fun c => (pieces? rest).map (.plain c :: ·)
      else if c < 32 ∨ c = quote then none
      else (pieces? rest).map (.plain c :: ·)

/-- The bytes of a character. -/
def character (n : Nat) : Text := String.utf8EncodeChar (Char.ofNat n)

def isHighHalf (n : Nat) : Bool := 0xD800 ≤ n && n < 0xDC00

def isLowHalf (n : Nat) : Bool := 0xDC00 ≤ n && n < 0xE000

/-- The bytes of pieces. A character beyond the first 65536 is given by two halves, and no half
stands alone. -/
def bytes? : List Piece → Option Text
  | [] => some []
  | .plain c :: rest => (bytes? rest).map (c :: ·)
  | .unit n :: rest =>
      if isHighHalf n then
        match rest with
        | .unit m :: rest =>
            if isLowHalf m then
              (bytes? rest).map (character (0x10000 + (n - 0xD800) * 0x400 + (m - 0xDC00)) ++ ·)
            else none
        | _ => none
      else if isLowHalf n then none
      else (bytes? rest).map (character n ++ ·)

/-- The text that is written between the quotes. -/
def unescape? (t : Text) : Option Text := (pieces? t).bind bytes?

/-- What stands before the closing quote, and what comes after it. -/
def body? : Text → Option (Text × Text)
  | [] => none
  | c :: rest =>
      if c = quote then some ([], rest)
      else if c = backslash then
        match rest with
        | [] => none
        | d :: rest => (body? rest).map fun (inside, after) => (c :: d :: inside, after)
      else (body? rest).map fun (inside, after) => (c :: inside, after)

/-! ## Tokens -/

inductive Token where
  | beginArray
  | endArray
  | beginObject
  | endObject
  | comma
  | colon
  /-- A value without parts. -/
  | scalar (v : Value)

def isSpace (c : UInt8) : Bool :=
  c == byte ' ' || c == byte '\t' || c == byte '\n' || c == byte '\r'

/-- The token that a byte is on its own. -/
def sign? (c : UInt8) : Option Token :=
  if c = byte '[' then some .beginArray
  else if c = byte ']' then some .endArray
  else if c = byte '\x7b' then some .beginObject
  else if c = byte '\x7d' then some .endObject
  else if c = byte ',' then some .comma
  else if c = byte ':' then some .colon
  else none

/-- The byte belongs to a word: to a number or a name. -/
def isWord (c : UInt8) : Bool := !isSpace c && (sign? c).isNone && c != quote

/-- The value of a word. -/
def word? (t : Text) : Option Value :=
  if t = "null" then some .null
  else if t = "true" then some (.bool true)
  else if t = "false" then some (.bool false)
  else (number? t).map .number

theorem length_body? {t inside after : Text} (h : body? t = some (inside, after)) :
    after.length < t.length := by
  fun_induction body? t generalizing inside after with
  | case1 => cases h
  | case2 rest =>
    cases h
    exact Nat.lt_succ_self _
  | case3 => cases h
  | case4 d rest hc ih =>
    obtain ⟨⟨inside', after'⟩, hbody, heq⟩ := Option.map_eq_some_iff.mp h
    cases heq
    exact Nat.lt_succ_of_lt (Nat.lt_succ_of_lt (ih hbody))
  | case5 c rest hc hb ih =>
    obtain ⟨⟨inside', after'⟩, hbody, heq⟩ := Option.map_eq_some_iff.mp h
    cases heq
    exact Nat.lt_succ_of_lt (ih hbody)

/-- The tokens of a text. -/
def tokens? : Text → Option (List Token)
  | [] => some []
  | c :: rest =>
      if isSpace c then tokens? rest
      else if c = quote then
        match _h : body? rest with
        | none => none
        | some (inside, after) =>
            (unescape? inside).bind fun t => (tokens? after).map (.scalar (.string t) :: ·)
      else
        match sign? c with
        | some token => (tokens? rest).map (token :: ·)
        | none =>
            (word? (c :: rest.takeWhile isWord)).bind fun v =>
              (tokens? (rest.dropWhile isWord)).map (.scalar v :: ·)
termination_by t => t.length
decreasing_by
  · exact Nat.lt_succ_self _
  · exact Nat.lt_succ_of_lt (length_body? _h)
  · exact Nat.lt_succ_self _
  · exact Nat.lt_succ_of_le (List.dropWhile_sublist _).length_le

/-! ## Values -/

mutual

/-- The value at the front of some tokens, and the tokens after it. Nesting is as deep as `fuel`
lasts; there are enough steps for all tokens. -/
def value? : Nat → List Token → Option (Value × List Token)
  | 0, _ => none
  | fuel + 1, tokens =>
      match tokens with
      | .scalar v :: rest => some (v, rest)
      | .beginArray :: .endArray :: rest => some (.array [], rest)
      | .beginArray :: rest => (items? fuel rest).map fun (items, rest) => (.array items, rest)
      | .beginObject :: .endObject :: rest => some (.object [], rest)
      | .beginObject :: rest =>
          (members? fuel rest).map fun (members, rest) => (.object members, rest)
      | _ => none

/-- The values up to the end of an array that has some. -/
def items? : Nat → List Token → Option (List Value × List Token)
  | 0, _ => none
  | fuel + 1, tokens =>
      (value? fuel tokens).bind fun (v, rest) =>
        match rest with
        | .endArray :: rest => some ([v], rest)
        | .comma :: rest => (items? fuel rest).map fun (items, rest) => (v :: items, rest)
        | _ => none

/-- The members up to the end of an object that has some. -/
def members? : Nat → List Token → Option (List (Text × Value) × List Token)
  | 0, _ => none
  | fuel + 1, tokens =>
      match tokens with
      | .scalar (.string key) :: .colon :: rest =>
          (value? fuel rest).bind fun (v, rest) =>
            match rest with
            | .endObject :: rest => some ([(key, v)], rest)
            | .comma :: rest =>
                (members? fuel rest).map fun (members, rest) => ((key, v) :: members, rest)
            | _ => none
      | _ => none

end

/-- Reads a text that is one value, with nothing but blanks around it. -/
def read? (t : Text) : Option Value :=
  (tokens? t).bind fun tokens =>
    match value? tokens.length tokens with
    | some (v, []) => some v
    | _ => none

/-! ## What numbers are made of -/

/-- The bytes that numbers are made of. -/
def isNumeral (c : UInt8) : Bool :=
  isDigit c || c == byte '-' || c == byte '+' || c == byte '.' || isExponentMark c

theorem isNumeral_of_isDigit {c : UInt8} (h : isDigit c = true) : isNumeral c = true := by
  simp only [isNumeral, h, Bool.true_or]

theorem ne_of_class {α : Type} {p : α → Bool} {a b : α} (ha : p a = true) (hb : p b = false) :
    a ≠ b := by
  rintro rfl
  rw [ha] at hb
  cases hb

theorem isWord_of_isNumeral {c : UInt8} (h : isNumeral c = true) : isWord c = true := by
  have hne : ∀ d, isNumeral d = false → c ≠ d := fun d => ne_of_class h
  have hspace : isSpace c = false := by
    simp only [isSpace, Bool.or_eq_false_iff, beq_eq_false_iff_ne]
    exact ⟨⟨⟨hne _ (by decide), hne _ (by decide)⟩, hne _ (by decide)⟩, hne _ (by decide)⟩
  have hsign : sign? c = none := by
    rw [sign?, if_neg (hne _ (by decide)), if_neg (hne _ (by decide)), if_neg (hne _ (by decide)),
      if_neg (hne _ (by decide)), if_neg (hne _ (by decide)), if_neg (hne _ (by decide))]
  rw [isWord, hspace, hsign, bne_iff_ne.mpr (hne quote (by decide))]
  rfl

theorem isExponentMark_of_isDigit {c : UInt8} (h : isDigit c = true) :
    isExponentMark c = false := by
  simp only [isExponentMark, Bool.or_eq_false_iff, beq_eq_false_iff_ne]
  exact ⟨ne_of_class h (by decide), ne_of_class h (by decide)⟩

/-- A text that is not empty and has only bytes of a class. -/
def Made (p : UInt8 → Bool) (t : Text) : Prop := t ≠ [] ∧ ∀ c ∈ t, p c = true

theorem Made.mono {p q : UInt8 → Bool} {t : Text} (h : Made p t)
    (hpq : ∀ c, p c = true → q c = true) : Made q t :=
  ⟨h.1, fun c hc => hpq c (h.2 c hc)⟩

theorem Made.append {p : UInt8 → Bool} {s t : Text} (hs : Made p s) (ht : ∀ c ∈ t, p c = true) :
    Made p (s ++ t) :=
  ⟨List.append_ne_nil_of_left_ne_nil hs.1 t, List.forall_mem_append.mpr ⟨hs.2, ht⟩⟩

theorem Made.cons {p : UInt8 → Bool} {c : UInt8} {t : Text} (hc : p c = true)
    (ht : ∀ d ∈ t, p d = true) : Made p (c :: t) :=
  ⟨List.cons_ne_nil c t, List.forall_mem_cons.mpr ⟨hc, ht⟩⟩

theorem made_of_readNat? {t : Text} {n : Nat} (h : Text.readNat? t = some n) : Made isDigit t := by
  rw [Text.readNat?] at h
  split at h
  · next hdigits => exact ⟨hdigits.1, List.all_eq_true.mp hdigits.2⟩
  · cases h

theorem made_of_readInt? {t : Text} {n : Int} (h : Text.readInt? t = some n) :
    Made isNumeral t := by
  obtain ⟨k, hlift, -⟩ := Option.map_eq_some_iff.mp h
  obtain ⟨n, hn, -⟩ := Option.bind_eq_some_iff.mp hlift
  have hdigits := (made_of_readNat? hn).mono fun c => isNumeral_of_isDigit
  cases t with
  | nil => exact hdigits
  | cons c rest =>
    dsimp only at hdigits
    split at hdigits
    · next hc => exact .cons (hc ▸ by decide) hdigits.2
    · split at hdigits
      · next hc => exact .cons (hc ▸ by decide) hdigits.2
      · exact hdigits

theorem made_of_whole? {t : Text} {n : Nat} (h : whole? t = some n) : Made isDigit t := by
  rw [whole?] at h
  split at h
  · cases h
  · exact made_of_readNat? h

/-- The bytes that numbers without sign and exponent are made of. -/
def isFixed (c : UInt8) : Bool := isDigit c || c == byte '.'

theorem isFixed_of_isDigit {c : UInt8} (h : isDigit c = true) : isFixed c = true := by
  rw [isFixed, h, Bool.true_or]

theorem isNumeral_of_isFixed {c : UInt8} (h : isFixed c = true) : isNumeral c = true := by
  rcases Bool.or_eq_true_iff.mp h with hdigit | hpoint
  · exact isNumeral_of_isDigit hdigit
  · rw [eq_of_beq hpoint]
    decide

theorem isExponentMark_of_isFixed {c : UInt8} (h : isFixed c = true) :
    isExponentMark c = false := by
  rcases Bool.or_eq_true_iff.mp h with hdigit | hpoint
  · exact isExponentMark_of_isDigit hdigit
  · rw [eq_of_beq hpoint]
    decide

theorem made_of_fixed? {t : Text} {x : Rat} (h : fixed? t = some x) : Made isFixed t := by
  rw [fixed?] at h
  split at h
  · obtain ⟨n, hn, -⟩ := Option.map_eq_some_iff.mp h
    exact (made_of_whole? hn).mono fun c => isFixed_of_isDigit
  · next whole fraction hsplit =>
    obtain ⟨n, hn, hrest⟩ := Option.bind_eq_some_iff.mp h
    obtain ⟨k, hk, -⟩ := Option.map_eq_some_iff.mp hrest
    have hwhole := (made_of_whole? hn).mono fun c => isFixed_of_isDigit
    have hfraction := (made_of_readNat? hk).mono fun c => isFixed_of_isDigit
    rw [Text.eq_of_splitAt? hsplit]
    exact hwhole.append (Made.cons (by decide) hfraction.2).2

theorem made_of_unsigned? {t : Text} {x : Rat} (h : unsigned? t = some x) : Made isNumeral t := by
  obtain ⟨y, hy, hrest⟩ := Option.bind_eq_some_iff.mp h
  rw [← List.takeWhile_append_dropWhile (p := (!isExponentMark ·)) (l := t)]
  refine ((made_of_fixed? hy).mono fun c => isNumeral_of_isFixed).append ?_
  split at hrest
  · next hnone =>
    rw [hnone]
    exact fun c hc => absurd hc List.not_mem_nil
  · next c exponent hdrop =>
    obtain ⟨e, he, -⟩ := Option.map_eq_some_iff.mp hrest
    have hmark : isExponentMark c = true := by
      have hhead := List.head?_dropWhile_not (!isExponentMark ·) t
      rw [hdrop] at hhead
      simpa using hhead
    rw [hdrop]
    refine (Made.cons ?_ (made_of_readInt? he).2).2
    rw [isNumeral, hmark, Bool.or_true]

theorem made_of_number? {t : Text} {x : Rat} (h : number? t = some x) : Made isNumeral t := by
  rw [number?] at h
  split at h
  · next hminus =>
    obtain ⟨y, hy, -⟩ := Option.map_eq_some_iff.mp h
    cases t with
    | nil => cases hminus
    | cons c rest =>
      rw [Option.some.inj hminus]
      exact .cons (by decide) (made_of_unsigned? hy).2
  · exact made_of_unsigned? h

/-! ## Reading numbers back -/

theorem point_notMem_of_digits {t : Text} (h : ∀ c ∈ t, isDigit c = true) : byte '.' ∉ t := by
  intro hmem
  have hpoint := h _ hmem
  revert hpoint
  decide

theorem whole?_ofNat (n : Nat) : whole? (Text.ofNat n) = some n := by
  rw [whole?, if_neg, Text.readNat?_ofNat]
  rintro ⟨hzero, hne⟩
  rw [Text.head?_ofNat n hzero] at hne
  exact hne rfl

theorem fixed?_of_whole? {t : Text} {n : Nat} (h : whole? t = some n) :
    fixed? t = some (n : Rat) := by
  rw [fixed?, Text.splitAt?_eq_none_iff.mpr (point_notMem_of_digits (made_of_whole? h).2), h]
  rfl

theorem fixed?_point {whole fraction : Text} {n k : Nat} (hwhole : whole? whole = some n)
    (hfraction : Text.readNat? fraction = some k) :
    fixed? (whole ++ byte '.' :: fraction) =
      some ((n : Rat) + k / (10 : Rat) ^ fraction.length) := by
  rw [fixed?, Text.splitAt?_append (point_notMem_of_digits (made_of_whole? hwhole).2)]
  dsimp only
  rw [hwhole, hfraction]
  rfl

/-- A number without an exponent is read from all of its text. -/
theorem unsigned?_of_fixed? {t : Text} {x : Rat} (h : fixed? t = some x) :
    unsigned? t = some x := by
  have hall : ∀ c ∈ t, (!isExponentMark c) = true := by
    intro c hc
    rw [isExponentMark_of_isFixed ((made_of_fixed? h).2 c hc)]
    rfl
  rw [unsigned?, List.takeWhile_eq_self_iff.mpr hall, List.dropWhile_eq_nil_iff.mpr hall, h]
  rfl

/-- What can be read without a sign has none. -/
theorem number?_of_unsigned? {t : Text} {x : Rat} (h : unsigned? t = some x) :
    number? t = some x := by
  rw [number?, if_neg, h]
  intro hminus
  obtain ⟨y, hy, -⟩ := Option.bind_eq_some_iff.mp h
  have hhead : (t.takeWhile (!isExponentMark ·)).head? = some (byte '-') := by
    rw [List.head?_takeWhile, hminus]
    rfl
  have hfixed := (made_of_fixed? hy).2 _ (List.mem_of_mem_head? hhead)
  revert hfixed
  decide

theorem number?_minus {t : Text} {x : Rat} (h : unsigned? t = some x) :
    number? (byte '-' :: t) = some (-x) := by
  rw [number?, List.head?_cons, if_pos rfl, List.tail_cons, h, Option.map_some]

theorem unsigned?_ofNat (n : Nat) : unsigned? (Text.ofNat n) = some (n : Rat) :=
  unsigned?_of_fixed? (fixed?_of_whole? (whole?_ofNat n))

theorem number?_ofNat (n : Nat) : number? (Text.ofNat n) = some (n : Rat) :=
  number?_of_unsigned? (unsigned?_ofNat n)

theorem number?_ofInt (n : Int) : number? (Text.ofInt n) = some (n : Rat) := by
  cases n with
  | ofNat n => exact number?_ofNat n
  | negSucc n =>
    rw [Int.cast_negSucc]
    exact number?_minus (unsigned?_ofNat (n + 1))

/-! ## Reading strings back -/

/-- The ways in which a byte is written: by a name, by its two digits, or as it is. -/
inductive Escaping (c : UInt8) : Text → Prop where
  | named (d : UInt8) (hd : d ≠ byte 'u') (hname : named? d = some c) : Escaping c [backslash, d]
  | digits (hc : c < 32) :
      Escaping c [backslash, byte 'u', byte '0', byte '0', hexDigit (c.toNat / 16),
        hexDigit (c.toNat % 16)]
  | plain (hc : ¬(c < 32 ∨ c = quote)) (hb : c ≠ backslash) : Escaping c [c]

theorem escaping (c : UInt8) : Escaping c (escapeByte c) := by
  unfold escapeByte
  split
  · next hc => exact hc ▸ .named backslash (by decide) (by decide)
  split
  · next hc => exact hc ▸ .named quote (by decide) (by decide)
  split
  · next hc => exact hc ▸ .named (byte 'n') (by decide) (by decide)
  split
  · next hc => exact hc ▸ .named (byte 'r') (by decide) (by decide)
  split
  · next hc => exact hc ▸ .named (byte 't') (by decide) (by decide)
  split
  · next hc => exact .digits hc
  · next hb hq _ _ _ hc => exact .plain (not_or.mpr ⟨hc, hq⟩) hb

/-- A byte has two hexadecimal digits. -/
theorem hexDigits_lt (c : UInt8) : c.toNat / 16 < 16 ∧ c.toNat % 16 < 16 :=
  ⟨Nat.div_lt_of_lt_mul c.toNat_lt, Nat.mod_lt _ (by decide)⟩

theorem hexValue?_hexDigit {n : Nat} (h : n < 16) : hexValue? (hexDigit n) = some n := by
  have hall : ∀ n < 16, hexValue? (hexDigit n) = some n := by decide
  exact hall n h

theorem character_of_lt {c : UInt8} (h : c < 32) : character c.toNat = [c] := by
  have hall : ∀ n < 32, character n = [UInt8.ofNat n] := by decide
  rw [hall c.toNat (UInt8.lt_iff_toNat_lt.mp h), UInt8.ofNat_toNat]

theorem pieces?_named {d c : UInt8} (hd : d ≠ byte 'u') (hname : named? d = some c) (t : Text) :
    pieces? (backslash :: d :: t) = (pieces? t).map (.plain c :: ·) := by
  rw [pieces?.eq_def]
  dsimp only
  rw [if_pos rfl, if_neg hd, hname, Option.bind_some]

theorem pieces?_digits {c : UInt8} (t : Text) :
    pieces? (backslash :: byte 'u' :: byte '0' :: byte '0' :: hexDigit (c.toNat / 16) ::
      hexDigit (c.toNat % 16) :: t) = (pieces? t).map (.unit c.toNat :: ·) := by
  have hzero : hexValue? (byte '0') = some 0 := by decide
  have hunit : unit? (byte '0') (byte '0') (hexDigit (c.toNat / 16)) (hexDigit (c.toNat % 16)) =
      some c.toNat := by
    obtain ⟨hhigh, hlow⟩ := hexDigits_lt c
    rw [unit?, hzero, hexValue?_hexDigit hhigh, hexValue?_hexDigit hlow]
    simp only [Option.bind_some, Option.map_some, Nat.mul_zero, Nat.zero_add]
    rw [Nat.div_add_mod]
  rw [pieces?, if_pos rfl, if_pos rfl, hunit, Option.bind_some]

theorem pieces?_plain {c : UInt8} (hc : ¬(c < 32 ∨ c = quote)) (hb : c ≠ backslash) (t : Text) :
    pieces? (c :: t) = (pieces? t).map (.plain c :: ·) := by
  rw [pieces?.eq_def]
  dsimp only
  rw [if_neg hb, if_neg hc]

theorem bytes?_unit {c : UInt8} (h : c < 32) (rest : List Piece) :
    bytes? (.unit c.toNat :: rest) = (bytes? rest).map (c :: ·) := by
  have hlt : c.toNat < 32 := UInt8.lt_iff_toNat_lt.mp h
  have hhigh : isHighHalf c.toNat = false := by
    simp only [isHighHalf, Bool.and_eq_false_iff, decide_eq_false_iff_not]
    exact .inl (by omega)
  have hlow : isLowHalf c.toNat = false := by
    simp only [isLowHalf, Bool.and_eq_false_iff, decide_eq_false_iff_not]
    exact .inl (by omega)
  rw [bytes?.eq_def]
  dsimp only
  rw [hhigh, hlow, character_of_lt h]
  rfl

theorem unescape?_escapeByte (c : UInt8) (t : Text) :
    unescape? (escapeByte c ++ t) = (unescape? t).map (c :: ·) := by
  have hplain : ((pieces? t).map (.plain c :: ·)).bind bytes? = (unescape? t).map (c :: ·) := by
    rw [unescape?]
    cases pieces? t <;> rfl
  have hc := escaping c
  generalize escapeByte c = written at hc
  cases hc with
  | named d hd hname =>
    show (pieces? (backslash :: d :: t)).bind bytes? = _
    rw [pieces?_named hd hname, hplain]
  | digits hc =>
    show (pieces? (backslash :: byte 'u' :: byte '0' :: byte '0' :: hexDigit (c.toNat / 16) ::
      hexDigit (c.toNat % 16) :: t)).bind bytes? = _
    rw [pieces?_digits, unescape?]
    cases pieces? t with
    | none => rfl
    | some rest => exact bytes?_unit hc rest
  | plain hc hb =>
    show (pieces? (c :: t)).bind bytes? = _
    rw [pieces?_plain hc hb, hplain]

/-- Escaping loses nothing. -/
theorem unescape?_escape (t : Text) : unescape? (escape t) = some t := by
  induction t with
  | nil => rfl
  | cons c t ih =>
    rw [escape, List.flatMap_cons, unescape?_escapeByte]
    show (unescape? (escape t)).map _ = _
    rw [ih, Option.map_some]

theorem body?_plain {c : UInt8} (hq : c ≠ quote) (hb : c ≠ backslash) (t : Text) :
    body? (c :: t) = (body? t).map (Prod.map (c :: ·) id) := by
  rw [body?.eq_def]
  dsimp only
  rw [if_neg hq, if_neg hb]
  rfl

theorem body?_escaped (d : UInt8) (t : Text) :
    body? (backslash :: d :: t) = (body? t).map (Prod.map (backslash :: d :: ·) id) := by
  rw [body?.eq_def]
  dsimp only
  rw [if_neg (by decide), if_pos rfl]
  rfl

theorem hexDigit_ne {n : Nat} (h : n < 16) : hexDigit n ≠ quote ∧ hexDigit n ≠ backslash := by
  have hall : ∀ n < 16, hexDigit n ≠ quote ∧ hexDigit n ≠ backslash := by decide
  exact hall n h

/-- No quote of an escaped byte closes the string. -/
theorem body?_escapeByte (c : UInt8) (t : Text) :
    body? (escapeByte c ++ t) = (body? t).map (Prod.map (escapeByte c ++ ·) id) := by
  have hc := escaping c
  generalize escapeByte c = written at hc
  cases hc with
  | named d hd hname => exact body?_escaped d t
  | digits hc =>
    have hhigh := hexDigit_ne (hexDigits_lt c).1
    have hlow := hexDigit_ne (hexDigits_lt c).2
    show body? (backslash :: byte 'u' :: byte '0' :: byte '0' :: hexDigit (c.toNat / 16) ::
      hexDigit (c.toNat % 16) :: t) = _
    rw [body?_escaped, body?_plain (by decide) (by decide), body?_plain (by decide) (by decide),
      body?_plain hhigh.1 hhigh.2, body?_plain hlow.1 hlow.2]
    cases body? t <;> rfl
  | plain hc hb => exact body?_plain (fun hq => hc (.inr hq)) hb t

theorem body?_escape (t rest : Text) :
    body? (escape t ++ quote :: rest) = some (escape t, rest) := by
  induction t with
  | nil =>
    show body? (quote :: rest) = some ([], rest)
    rw [body?.eq_def]
    exact if_pos rfl
  | cons c t ih =>
    show body? (escapeByte c ++ escape t ++ quote :: rest) = _
    rw [List.append_assoc, body?_escapeByte, ih]
    rfl

end Dungeon.Json
