/-! Blank characters in the sense of the Unicode property White_Space, and decimal integer numerals:
an optional sign and digits, read from the left within fixed bounds. The first offending digit decides
the error. -/
namespace DbClient.Text

/-! ### Blanks -/

/-- The characters with the property White_Space. -/
def isBlank (c : Char) : Bool :=
  let n := c.toNat
  (9 ≤ n && n ≤ 13) || n = 0x20 || n = 0x85 || n = 0xA0 || n = 0x1680 || (0x2000 ≤ n && n ≤ 0x200A)
    || n = 0x2028 || n = 0x2029 || n = 0x202F || n = 0x205F || n = 0x3000

def dropBlank (s : List Char) : List Char := s.dropWhile isBlank

/-- Drops blank characters at both ends. -/
def trim (s : List Char) : List Char := (dropBlank (dropBlank s).reverse).reverse

/-- Splits at each occurrence of a separator: `n` separators give `n + 1` parts. -/
def splitAt (p : Char → Bool) : List Char → List (List Char)
  | [] => [[]]
  | c :: rest =>
    if p c then [] :: splitAt p rest
    else match splitAt p rest with
      | [] => [[c]]
      | part :: parts => (c :: part) :: parts

/-- The maximal runs of characters that are not blank. -/
def words (s : List Char) : List (List Char) := (splitAt isBlank s).filter (· ≠ [])

theorem splitAt_ne_nil (p : Char → Bool) (s : List Char) : splitAt p s ≠ [] := by
  induction s with
  | nil => simp [splitAt]
  | cons c rest ih =>
    by_cases h : p c = true
    · simp [splitAt, h]
    · cases hs : splitAt p rest with
      | nil => exact absurd hs ih
      | cons part parts => simp [splitAt, h, hs]

/-! ### Numerals -/

/-- Why a text is not an integer numeral within the bounds. -/
inductive NumeralError where
  | empty
  | invalidDigit
  | tooLarge
  | tooSmall
  deriving Repr, DecidableEq

def NumeralError.message : NumeralError → String
  | .empty => "cannot parse integer from empty string"
  | .invalidDigit => "invalid digit found in string"
  | .tooLarge => "number too large to fit in target type"
  | .tooSmall => "number too small to fit in target type"

/-- The value of an ASCII decimal digit. -/
def digit? (c : Char) : Option Nat :=
  if '0' ≤ c ∧ c ≤ '9' then some (c.toNat - '0'.toNat) else none

def isDigit (c : Char) : Bool := (digit? c).isSome

/-- Reads digits after a value already read; the magnitude may not pass the limit. -/
def readMagnitude (limit : Nat) (overflow : NumeralError) (acc : Nat) :
    List Char → Except NumeralError Nat
  | [] => .ok acc
  | c :: rest =>
    match digit? c with
    | none => .error .invalidDigit
    | some d =>
      let acc := acc * 10 + d
      if acc ≤ limit then readMagnitude limit overflow acc rest else .error overflow

/-- Reads an integer in `[-below, above]`; a sign needs a digit after it. -/
def readInteger (below above : Nat) : List Char → Except NumeralError Int
  | [] => .error .empty
  | ['+'] => .error .invalidDigit
  | ['-'] => .error .invalidDigit
  | '+' :: digits => (readMagnitude above .tooLarge 0 digits).map Int.ofNat
  | '-' :: digits => (readMagnitude below .tooSmall 0 digits).map fun n => -Int.ofNat n
  | digits => (readMagnitude above .tooLarge 0 digits).map Int.ofNat

/-- The decimal digits of a natural number, most significant first and without leading zeros. -/
def digits (n : Nat) : List Char :=
  if n < 10 then [Char.ofNat ('0'.toNat + n)]
  else digits (n / 10) ++ [Char.ofNat ('0'.toNat + n % 10)]

def writeInteger : Int → List Char
  | .ofNat n => digits n
  | .negSucc n => '-' :: digits (n + 1)

/-- The decimal text of an integer. -/
def decimal (n : Int) : String := String.ofList (writeInteger n)

/-- An integer padded with zeros after its sign to a total width. -/
def paddedDecimal (width : Nat) (n : Int) : String :=
  let magnitude := digits n.natAbs
  let sign := if n < 0 then ['-'] else []
  String.ofList (sign ++ List.replicate (width - sign.length - magnitude.length) '0' ++ magnitude)

end DbClient.Text
