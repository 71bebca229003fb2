import DbClient.Kind
import DbClient.Number.Binary
import DbClient.Time.DateTime

/-! The types of values that travel between the application and the database, and for each type the
host values that a variable of the type holds. -/
namespace DbClient

inductive ValueType where
  | bool
  | int (t : IntType)
  | float (p : Precision)
  | string
  | raw
  | dateTime
  | handle
  deriving Repr, DecidableEq

namespace ValueType

def all : List ValueType :=
  [bool, float .single, float .double, string, raw, dateTime, handle] ++ IntType.all.map int

def name : ValueType → String
  | bool => "Bool"
  | int t => t.name
  | float p => p.name
  | string => "String"
  | raw => "Raw"
  | dateTime => "DateTime"
  | handle => "Handle"

/-- Values of the type have no fixed length. -/
def isVariable : ValueType → Bool
  | string | raw => true
  | _ => false

/-- The length of a native cell, for types of fixed length. -/
def size? : ValueType → Option Nat
  | bool => some 4
  | int t => some t.size
  | float p => some p.size
  | dateTime | handle => some 8
  | string | raw => none

/-- Host values of the type. A truth value travels as a 32-bit integer, a moment as a count of
microseconds, a handle as a word. -/
abbrev Host : ValueType → Type
  | bool => Bool
  | int t => Fixed t
  | float p => Binary p
  | string => String
  | raw => List UInt8
  | dateTime => DateTime
  | handle => Fixed .uint64

end ValueType

/-- Host values. -/
abbrev Host (ty : ValueType) : Type := ty.Host

instance : (ty : ValueType) → DecidableEq (Host ty)
  | .bool => inferInstanceAs (DecidableEq Bool)
  | .int t => inferInstanceAs (DecidableEq (Fixed t))
  | .float p => inferInstanceAs (DecidableEq (Binary p))
  | .string => inferInstanceAs (DecidableEq String)
  | .raw => inferInstanceAs (DecidableEq (List UInt8))
  | .dateTime => inferInstanceAs (DecidableEq DateTime)
  | .handle => inferInstanceAs (DecidableEq (Fixed .uint64))

/-- A host value that carries its type. -/
structure Datum where
  ty : ValueType
  value : Host ty

end DbClient
