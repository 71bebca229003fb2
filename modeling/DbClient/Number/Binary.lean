import DbClient.Number.Integer

/-! Binary floating-point numbers as words with a sign, an exponent and a fraction. Every operation
is exact integer arithmetic on the fields; results are rounded once, to nearest with ties to even.
-/
namespace DbClient

-- a power is the one of core, whichever others are in scope
attribute [local instance (high)] instPowNat

/-- A binary interchange format. -/
inductive Precision where
  | single
  | double
  deriving Repr, DecidableEq

namespace Precision

/-- The width in bytes. -/
def size : Precision → Nat
  | single => 4
  | double => 8

def bits (p : Precision) : Nat := 8 * p.size

def fractionBits : Precision → Nat
  | single => 23
  | double => 52

/-- The magnitude word of infinity: all exponent bits set and no fraction. -/
def infinityWord (p : Precision) : Nat := 2 ^ (p.bits - 1) - 2 ^ p.fractionBits

/-- The exponent of the least positive number. -/
def leastExponent : Precision → Int
  | single => -149
  | double => -1074

def name : Precision → String
  | single => "Float"
  | double => "Double"

end Precision

/-- A floating-point word of a format. -/
structure Binary (p : Precision) where
  word : Nat
  lt : word < 2 ^ p.bits
  deriving DecidableEq

/-- What a floating-point word stands for; a finite one is plus or minus
`significand * 2 ^ exponent`. -/
inductive Meaning where
  | notANumber
  | infinite (negative : Bool)
  | finite (negative : Bool) (significand : Nat) (exponent : Int)
  deriving Repr, DecidableEq

namespace Binary
variable {p : Precision}

theorem ext {x y : Binary p} (h : x.word = y.word) : x = y := by
  cases x; cases y; simp_all

/-- The word with the low bits of a number. -/
def ofWord (p : Precision) (n : Nat) : Binary p :=
  ⟨n % 2 ^ p.bits, Nat.mod_lt _ (by cases p <;> decide)⟩

instance : Repr (Binary p) := ⟨fun x prec => reprPrec x.word prec⟩

def negative (x : Binary p) : Bool := 2 ^ (p.bits - 1) ≤ x.word

/-- The word without its sign. -/
def magnitude (x : Binary p) : Nat := x.word % 2 ^ (p.bits - 1)

def meaning (x : Binary p) : Meaning :=
  let fraction := x.magnitude % 2 ^ p.fractionBits
  let exponent := x.magnitude / 2 ^ p.fractionBits
  if p.infinityWord < x.magnitude then .notANumber
  else if x.magnitude = p.infinityWord then .infinite x.negative
  else if exponent = 0 then .finite x.negative fraction p.leastExponent
  else .finite x.negative (2 ^ p.fractionBits + fraction) (p.leastExponent + exponent - 1)

/-- The word of a magnitude under a sign. -/
def ofMagnitude (p : Precision) (negative : Bool) (magnitude : Nat) : Binary p :=
  ofWord p (magnitude + if negative then 2 ^ (p.bits - 1) else 0)

def nan (p : Precision) : Binary p := ofWord p (p.infinityWord + 2 ^ (p.fractionBits - 1))

def infinity (p : Precision) (negative : Bool) : Binary p := ofMagnitude p negative p.infinityWord

/-- The nearest integer to `a / b`, the even one of two. -/
def nearest (a b : Nat) : Nat :=
  let n := a / b
  let r := a % b
  if 2 * r < b then n else if b < 2 * r then n + 1 else n + n % 2

/-- The greatest `e` with `2 ^ e * den ≤ num`, for positive numbers. -/
def floorLog (num den : Nat) : Int :=
  let e := (num.log2 : Int) - den.log2
  let below := if 0 ≤ e then num < den * 2 ^ e.toNat else num * 2 ^ (-e).toNat < den
  if below then e - 1 else e

/-- The magnitude word nearest to `num / den`; what is too large becomes infinite. -/
def roundMagnitude (p : Precision) (num den : Nat) : Nat :=
  if num = 0 then 0
  else
    let unit := max (floorLog num den - p.fractionBits) p.leastExponent
    let n := if 0 ≤ unit then nearest num (den * 2 ^ unit.toNat) else nearest (num * 2 ^ (-unit).toNat) den
    min ((unit - p.leastExponent).toNat * 2 ^ p.fractionBits + n) p.infinityWord

/-- The number nearest to plus or minus `num / den`. -/
def ofRatio (p : Precision) (negative : Bool) (num den : Nat) : Binary p :=
  ofMagnitude p negative (roundMagnitude p num den)

def ofInt (p : Precision) (n : Int) : Binary p := ofRatio p (n < 0) n.natAbs 1

/-- The number nearest to plus or minus `significand * 2 ^ exponent`. -/
def ofScaled (p : Precision) (negative : Bool) (significand : Nat) (exponent : Int) : Binary p :=
  if 0 ≤ exponent then ofRatio p negative (significand * 2 ^ exponent.toNat) 1
  else ofRatio p negative significand (2 ^ (-exponent).toNat)

/-- The same number in another format, rounded if it has to be. -/
def convert {p : Precision} (q : Precision) (x : Binary p) : Binary q :=
  match x.meaning with
  | .notANumber => nan q
  | .infinite negative => infinity q negative
  | .finite negative significand exponent => ofScaled q negative significand exponent

/-- The integer part of a finite number. -/
def truncate? (x : Binary p) : Option Int :=
  match x.meaning with
  | .finite negative significand exponent =>
    let n : Nat := if 0 ≤ exponent then significand * 2 ^ exponent.toNat
      else significand / 2 ^ (-exponent).toNat
    some (if negative then -(n : Int) else n)
  | _ => none

def isNaN (x : Binary p) : Bool := p.infinityWord < x.magnitude

/-- Both zeros are zero, no word that is not a number is. -/
def isZero (x : Binary p) : Bool := x.magnitude = 0

/-- Equality of numbers: the zeros are equal, what is not a number equals nothing. -/
def same (x y : Binary p) : Bool := !x.isNaN && !y.isNaN && (x.word = y.word || (x.isZero && y.isZero))

/-- The bytes of the word, least significant first. -/
def bytes (x : Binary p) : List UInt8 := lowBytes p.size x.word

/-- The number whose bytes stand at the front of a cell. -/
def ofBytes (p : Precision) (cell : List UInt8) : Binary p := ofWord p (ofLowBytes (cell.take p.size))

instance : Inhabited (Binary p) := ⟨ofWord p 0⟩

@[simp] theorem length_bytes (x : Binary p) : x.bytes.length = p.size := length_lowBytes _ _

theorem ofBytes_bytes (x : Binary p) (rest : List UInt8) : ofBytes p (x.bytes ++ rest) = x := by
  have hp : 2 ^ p.bits = 256 ^ p.size := by cases p <;> rfl
  rw [ofBytes, List.take_append_of_le_length (by simp), List.take_of_length_le (by simp), bytes,
    ofLowBytes_lowBytes]
  apply ext
  rw [← hp, Nat.mod_eq_of_lt x.lt, ofWord]
  exact Nat.mod_eq_of_lt x.lt

end Binary
end DbClient
