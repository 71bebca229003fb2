/-! Integers of fixed width: eight ranges, values that lie in one of them, and their bytes, least
significant first. -/
namespace DbClient

-- a power is the one of core, whichever others are in scope
attribute [local instance (high)] instPowNat

/-- A range of integers of fixed width. -/
inductive IntType where
  | int8 | int16 | int32 | int64
  | uint8 | uint16 | uint32 | uint64
  deriving Repr, DecidableEq

def IntType.all : List IntType := [.int8, .int16, .int32, .int64, .uint8, .uint16, .uint32, .uint64]

namespace IntType

def signed : IntType → Bool
  | int8 | int16 | int32 | int64 => true
  | uint8 | uint16 | uint32 | uint64 => false

/-- The width in bytes. -/
def size : IntType → Nat
  | int8 | uint8 => 1
  | int16 | uint16 => 2
  | int32 | uint32 => 4
  | int64 | uint64 => 8

def bits (t : IntType) : Nat := 8 * t.size

def min (t : IntType) : Int := if t.signed then -(2 ^ (t.bits - 1)) else 0

def max (t : IntType) : Int := if t.signed then 2 ^ (t.bits - 1) - 1 else 2 ^ t.bits - 1

def name : IntType → String
  | int8 => "Int8" | int16 => "Int16" | int32 => "Int32" | int64 => "Int64"
  | uint8 => "UInt8" | uint16 => "UInt16" | uint32 => "UInt32" | uint64 => "UInt64"

/-- An integer lies in the range. -/
def Holds (t : IntType) (n : Int) : Prop := t.min ≤ n ∧ n ≤ t.max

instance (t : IntType) (n : Int) : Decidable (t.Holds n) := inferInstanceAs (Decidable (_ ∧ _))

end IntType

/-- An integer of a range. -/
structure Fixed (t : IntType) where
  val : Int
  holds : t.Holds val
  deriving DecidableEq

namespace Fixed
variable {t : IntType}

instance : Repr (Fixed t) := ⟨fun x prec => reprPrec x.val prec⟩

theorem ext {x y : Fixed t} (h : x.val = y.val) : x = y := by
  cases x; cases y; simp_all

/-- An integer as a value of the range, when it lies in it. -/
def ofInt? (t : IntType) (n : Int) : Option (Fixed t) :=
  if h : t.Holds n then some ⟨n, h⟩ else none

theorem holds_wrap (t : IntType) (n : Int) :
    t.Holds (if t.signed then n.bmod (2 ^ t.bits) else n % 2 ^ t.bits) := by
  cases t <;>
    simp only [IntType.Holds, IntType.min, IntType.max, IntType.signed, IntType.bits, IntType.size,
      if_true, Bool.false_eq_true, if_false, Int.bmod] <;> omega

/-- The value of the range that an integer is congruent to modulo the number of its values. -/
def wrap (t : IntType) (n : Int) : Fixed t := ⟨_, holds_wrap t n⟩

theorem wrap_val (x : Fixed t) : wrap t x.val = x := by
  apply ext
  obtain ⟨n, h⟩ := x
  cases t <;>
    simp only [IntType.Holds, IntType.min, IntType.max, IntType.signed, IntType.bits, IntType.size,
      if_true, Bool.false_eq_true, if_false] at h <;>
    simp only [wrap, IntType.signed, IntType.bits, IntType.size, if_true, Bool.false_eq_true, if_false,
      Int.bmod] <;> omega

instance : Inhabited (Fixed t) := ⟨wrap t 0⟩

theorem ofInt?_eq_some {n : Int} (h : t.Holds n) : ofInt? t n = some ⟨n, h⟩ := by
  simp [ofInt?, h]

@[simp] theorem ofInt?_val (x : Fixed t) : ofInt? t x.val = some x := ofInt?_eq_some x.holds

end Fixed

/-- The `count` low bytes of a natural number, least significant first. -/
def lowBytes : Nat → Nat → List UInt8
  | 0, _ => []
  | count + 1, n => UInt8.ofNat (n % 256) :: lowBytes count (n / 256)

/-- The natural number with the given bytes, least significant first. -/
def ofLowBytes : List UInt8 → Nat
  | [] => 0
  | b :: rest => b.toNat + 256 * ofLowBytes rest

@[simp] theorem length_lowBytes (count n : Nat) : (lowBytes count n).length = count := by
  induction count generalizing n with
  | zero => rfl
  | succ count ih => simp [lowBytes, ih]

theorem ofLowBytes_lowBytes (count n : Nat) : ofLowBytes (lowBytes count n) = n % 256 ^ count := by
  induction count generalizing n with
  | zero => simp [lowBytes, ofLowBytes, Nat.mod_one]
  | succ count ih =>
    have h : (UInt8.ofNat (n % 256)).toNat = n % 256 := by simp
    rw [lowBytes, ofLowBytes, ih, h, Nat.pow_succ, Nat.mul_comm (256 ^ count) 256, Nat.mod_mul]

namespace Fixed
variable {t : IntType}

/-- The two's complement bytes of a value, least significant first. -/
def bytes (x : Fixed t) : List UInt8 := lowBytes t.size (x.val % 2 ^ t.bits).toNat

/-- The value whose bytes stand at the front of a cell. -/
def ofBytes (t : IntType) (cell : List UInt8) : Fixed t := wrap t (ofLowBytes (cell.take t.size))

@[simp] theorem length_bytes (x : Fixed t) : x.bytes.length = t.size := length_lowBytes _ _

theorem ofBytes_bytes (x : Fixed t) (rest : List UInt8) : ofBytes t (x.bytes ++ rest) = x := by
  have hp : (2 : Int) ^ t.bits = ((256 ^ t.size : Nat) : Int) := by cases t <;> rfl
  have hlt : (x.val % 2 ^ t.bits).toNat < 256 ^ t.size := by
    rw [hp]
    have := Int.emod_lt_of_pos x.val (b := ((256 ^ t.size : Nat) : Int)) (by cases t <;> decide)
    have := Int.emod_nonneg x.val (b := ((256 ^ t.size : Nat) : Int)) (by cases t <;> decide)
    omega
  have hnn : 0 ≤ x.val % 2 ^ t.bits := Int.emod_nonneg _ (by cases t <;> decide)
  rw [ofBytes, List.take_append_of_le_length (by simp), List.take_of_length_le (by simp), bytes,
    ofLowBytes_lowBytes, Nat.mod_eq_of_lt hlt]
  refine Eq.trans ?_ (wrap_val x)
  apply ext
  simp only [wrap, Int.toNat_of_nonneg hnn]
  cases t <;> simp only [IntType.signed, IntType.bits, IntType.size, if_true, Bool.false_eq_true,
    if_false, Int.bmod] <;> omega

end Fixed
end DbClient
