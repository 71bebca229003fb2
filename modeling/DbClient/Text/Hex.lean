import DbClient.Text.Numeral

/-! Hexadecimal texts: numerals, bytes as pairs of digits, and the escapes of quoted texts. -/
namespace DbClient.Text

/-! ### Numerals -/

def hexDigit (n : Nat) : Char :=
  if n < 10 then Char.ofNat ('0'.toNat + n) else Char.ofNat ('a'.toNat + (n - 10))

/-- The lower-case hexadecimal digits of a natural number. -/
def hexDigits (n : Nat) : List Char :=
  if n < 16 then [hexDigit n] else hexDigits (n / 16) ++ [hexDigit (n % 16)]

/-- A hexadecimal numeral with its mark. -/
def hex (n : Nat) : String := "0x" ++ String.ofList (hexDigits n)

/-! ### Bytes -/

namespace Hex

/-- The value of a lower-case hexadecimal digit. -/
def digitValue? (c : Char) : Option Nat :=
  if 'a' ≤ c ∧ c ≤ 'f' then some (c.toNat - 'a'.toNat + 10) else digit? c

def encodeByte (b : UInt8) : List Char := [hexDigit (b.toNat / 16), hexDigit (b.toNat % 16)]

/-- The text of a list of bytes, two digits for each. -/
def encode (bytes : List UInt8) : String := String.ofList (bytes.flatMap encodeByte)

def decodeChars? : List Char → Option (List UInt8)
  | [] => some []
  | high :: low :: rest => do
    let high ← digitValue? high
    let low ← digitValue? low
    return UInt8.ofNat (16 * high + low) :: (← decodeChars? rest)
  | _ => none

/-- The bytes that a text stands for. -/
def decode? (s : String) : Option (List UInt8) := decodeChars? s.toList

end Hex

/-! ### Quoted texts -/

/-- The form of a character in a quoted text for diagnostics: control characters, quotes and backslashes are escaped.
The rule is for ASCII; characters above it are written as they are. -/
def escape (c : Char) : List Char :=
  if c = '"' then ['\\', '"']
  else if c = '\\' then ['\\', '\\']
  else if c = '\n' then ['\\', 'n']
  else if c = '\r' then ['\\', 'r']
  else if c = '\t' then ['\\', 't']
  else if c.toNat = 0 then ['\\', '0']
  else if c.toNat < 32 ∨ c.toNat = 127 then
    ['\\', 'u', '\x7b'] ++ hexDigits c.toNat ++ ['\x7d']
  else [c]

/-- The text between double quotes. -/
def quoted (s : String) : String := String.ofList ('"' :: s.toList.flatMap escape ++ ['"'])

end DbClient.Text
