/-! UTF-8: encoding, strict and forgiving decoding, and the longest prefix that fits a byte count
without cutting a character. -/
namespace DbClient.Text.Utf8

/-- A byte that continues a character, with six bits of it. -/
def tailByte (n : Nat) : UInt8 := UInt8.ofNat (0x80 + n % 0x40)

def encodeChar (c : Char) : List UInt8 :=
  let n := c.toNat
  if n < 0x80 then [UInt8.ofNat n]
  else if n < 0x800 then [UInt8.ofNat (0xC0 + n / 0x40), tailByte n]
  else if n < 0x10000 then [UInt8.ofNat (0xE0 + n / 0x1000), tailByte (n / 0x40), tailByte n]
  else [UInt8.ofNat (0xF0 + n / 0x40000), tailByte (n / 0x1000), tailByte (n / 0x40), tailByte n]

def encode (s : List Char) : List UInt8 := s.flatMap encodeChar

/-- The bytes of a text. -/
def bytes (s : String) : List UInt8 := encode s.toList

/-- The second bytes that may follow a first byte, as the least and the greatest of them, with the
length of the character; no other second byte leads to a shortest form of a scalar value. -/
def lead? (b : UInt8) : Option (Nat × Nat × Nat) :=
  let n := b.toNat
  if 0xC2 ≤ n ∧ n ≤ 0xDF then some (2, 0x80, 0xBF)
  else if n = 0xE0 then some (3, 0xA0, 0xBF)
  else if n = 0xED then some (3, 0x80, 0x9F)
  else if 0xE1 ≤ n ∧ n ≤ 0xEF then some (3, 0x80, 0xBF)
  else if n = 0xF0 then some (4, 0x90, 0xBF)
  else if 0xF1 ≤ n ∧ n ≤ 0xF3 then some (4, 0x80, 0xBF)
  else if n = 0xF4 then some (4, 0x80, 0x8F)
  else none

def isTail (b : UInt8) : Bool := 0x80 ≤ b.toNat && b.toNat ≤ 0xBF

/-- The bytes at the front of a text that form one character, or that could begin one and do not. -/
inductive Front where
  | char (c : Char) (length : Nat)
  | broken (length : Nat)
  deriving Repr, DecidableEq

/-- Looks at the front of a text that starts with the given byte. -/
def front (b : UInt8) (rest : List UInt8) : Front :=
  if b.toNat < 0x80 then .char (Char.ofNat b.toNat) 1
  else match lead? b with
    | none => .broken 1
    | some (length, low, high) =>
      match rest with
      | b2 :: rest2 =>
        if b2.toNat < low ∨ high < b2.toNat then .broken 1
        else if length = 2 then
          .char (Char.ofNat ((b.toNat - 0xC0) * 0x40 + (b2.toNat - 0x80))) 2
        else match rest2 with
          | b3 :: rest3 =>
            if !isTail b3 then .broken 2
            else if length = 3 then
              .char (Char.ofNat ((b.toNat - 0xE0) * 0x1000 + (b2.toNat - 0x80) * 0x40
                + (b3.toNat - 0x80))) 3
            else match rest3 with
              | b4 :: _ =>
                if !isTail b4 then .broken 3
                else .char (Char.ofNat ((b.toNat - 0xF0) * 0x40000 + (b2.toNat - 0x80) * 0x1000
                  + (b3.toNat - 0x80) * 0x40 + (b4.toNat - 0x80))) 4
              | [] => .broken 3
          | [] => .broken 2
      | [] => .broken 1

/-- Decodes bytes that are UTF-8 throughout; the first argument counts the bytes still allowed to be
skipped as part of a character already read. -/
def decodeFrom : Nat → List UInt8 → Option (List Char)
  | _, [] => some []
  | skip + 1, _ :: rest => decodeFrom skip rest
  | 0, b :: rest =>
    match front b rest with
    | .char c length => (decodeFrom (length - 1) rest).map (c :: ·)
    | .broken _ => none

def decode? (bs : List UInt8) : Option String := (decodeFrom 0 bs).map String.ofList

/-- Decodes any bytes: each broken front becomes one replacement character. -/
def decodeForgivingFrom : Nat → List UInt8 → List Char
  | _, [] => []
  | skip + 1, _ :: rest => decodeForgivingFrom skip rest
  | 0, b :: rest =>
    match front b rest with
    | .char c length => c :: decodeForgivingFrom (length - 1) rest
    | .broken length => '\uFFFD' :: decodeForgivingFrom (length - 1) rest

def decodeForgiving (bs : List UInt8) : String := String.ofList (decodeForgivingFrom 0 bs)

/-- The longest prefix whose encoding has at most `n` bytes. -/
def fitting : Nat → List Char → List Char
  | _, [] => []
  | n, c :: rest =>
    let size := (encodeChar c).length
    if size ≤ n then c :: fitting (n - size) rest else []

@[simp] theorem encode_nil : encode [] = [] := rfl

@[simp] theorem encode_cons (c : Char) (s : List Char) :
    encode (c :: s) = encodeChar c ++ encode s := rfl

/-- The prefix fits. -/
theorem length_encode_fitting_le (n : Nat) (s : List Char) :
    (encode (fitting n s)).length ≤ n := by
  induction s generalizing n with
  | nil => simp [fitting]
  | cons c rest ih =>
    by_cases h : (encodeChar c).length ≤ n
    · have := ih (n - (encodeChar c).length)
      simp only [fitting, h, if_true, encode_cons, List.length_append]
      omega
    · simp [fitting, h]

/-- A text that fits is its own longest fitting prefix. -/
theorem fitting_of_length_le {n : Nat} {s : List Char} (h : (encode s).length ≤ n) :
    fitting n s = s := by
  induction s generalizing n with
  | nil => rfl
  | cons c rest ih =>
    rw [encode_cons, List.length_append] at h
    have hc : (encodeChar c).length ≤ n := by omega
    simp only [fitting, hc, if_true]
    rw [ih (by omega)]

end DbClient.Text.Utf8
