import DbClient.Text.Numeral
import DbClient.Value.Basic

/-! Conversion of values to host values. A number is converted exactly or rounded to a
floating-point format, and refused when it lies outside the range of an integer type. -/
namespace DbClient

-- a power is the one of core, whichever others are in scope
attribute [local instance (high)] instPowNat

/-- What a value says as a number. -/
inductive Number where
  | integer (n : Int)
  | real (p : Precision) (x : Binary p)

namespace Number

/-- Reads a number from a text: an integer of 128 bits, or else a double. -/
def read? (s : String) : Option Number :=
  let s := Text.trim s.toList
  match Text.readInteger (2 ^ (127 : Nat)) (2 ^ (127 : Nat) - 1) s with
  | .ok n => some (.integer n)
  | .error _ => (Decimal.read? .double s).map (.real .double)

/-- The number as an integer of a range; a fraction is cut off. -/
def toFixed? (t : IntType) : Number → Option (Fixed t)
  | integer n => Fixed.ofInt? t n
  | real _ x => x.truncate?.bind (Fixed.ofInt? t)

def toBinary (p : Precision) : Number → Binary p
  | integer n => Binary.ofInt p n
  | real _ x => x.convert p

/-- The number differs from zero; what is not a number does. -/
def isNonzero : Number → Bool
  | integer n => n ≠ 0
  | real _ x => !x.isZero

end Number

namespace Value

def number? : Value → Option Number
  | bool b => some (.integer (if b then 1 else 0))
  | int _ n => some (.integer n.val)
  | float p x => some (.real p x)
  | string s => Number.read? s
  | _ => none

/-- Converts a value to a host value of a type, when it can be. -/
def toHost? : (ty : ValueType) → Value → Option (Host ty)
  | .bool, bool b => some b
  | .bool, v => v.number?.map Number.isNonzero
  | .int t, v => v.number?.bind (Number.toFixed? t)
  | .float p, v => v.number?.map (Number.toBinary p)
  | .string, string s => some s
  | .string, raw bytes => Text.Utf8.decode? bytes
  | .string, _ => none
  | .raw, raw bytes => some bytes
  | .raw, string s => some (Text.Utf8.bytes s)
  | .raw, _ => none
  | .dateTime, dateTime micros => DateTime.ofMicros? micros.val
  | .dateTime, string s => DateTime.read? s.toList
  | .dateTime, _ => none
  | .handle, handle word => some word
  | .handle, _ => none

end Value

/-- What a value is asked for: itself, or a host value of a type; an optional request takes null as
the absence of a value. -/
structure Request where
  optional : Bool
  type? : Option ValueType
  deriving Repr, DecidableEq

/-- The answer to a request. -/
inductive Answer where
  | absent
  | value (v : Value)
  | host (d : Datum)

/-- Converts a value as requested; a failure names the type that was asked for. -/
def Value.answer (r : Request) (v : Value) : Except ValueType Answer :=
  if r.optional && v.isNull then .ok .absent
  else match r.type? with
    | none => .ok (.value v)
    | some ty =>
      match v.toHost? ty with
      | some x => .ok (.host ⟨ty, x⟩)
      | none => .error ty

end DbClient
