import DbClient.Text.Hex
import DbClient.Text.Utf8
import DbClient.Number.Decimal
import DbClient.Value.Type

/-! Values that come from the database: columns of rows and attributes of handles. -/
namespace DbClient

inductive Value where
  | null
  | bool (b : Bool)
  | int (t : IntType) (n : Fixed t)
  | float (p : Precision) (x : Binary p)
  | string (s : String)
  | raw (bytes : List UInt8)
  | dateTime (micros : Fixed .int64)
  | handle (word : Fixed .uint64)
  deriving DecidableEq

/-- A list in brackets. -/
def bracketed (texts : List String) : String := "[" ++ ", ".intercalate texts ++ "]"

def bytesText (bytes : List UInt8) : String :=
  bracketed (bytes.map fun b => Text.decimal b.toNat)

def boolText (b : Bool) : String := if b then "true" else "false"

def wordText (word : Fixed .uint64) : String := (Address.mk word.val.toNat).text

namespace Value

/-- The type of a value that is not null. -/
def type? : Value → Option ValueType
  | null => none
  | bool _ => some .bool
  | int t _ => some (.int t)
  | float p _ => some (.float p)
  | string _ => some .string
  | raw _ => some .raw
  | dateTime _ => some .dateTime
  | handle _ => some .handle

/-- Equality of values of one type; floating-point values are compared as numbers. -/
def same : Value → Value → Bool
  | .float p x, .float q y => if h : p = q then Binary.same (h ▸ x) y else false
  | v, w => v = w

def isNull (v : Value) : Bool := v.same .null

/-- The diagnostic text of a value. -/
def text : Value → String
  | null => "Null"
  | bool b => "Bool(" ++ boolText b ++ ")"
  | int t n => t.name ++ "(" ++ Text.decimal n.val ++ ")"
  | float p x => p.name ++ "(" ++ Decimal.text x ++ ")"
  | string s => "String(" ++ Text.quoted s ++ ")"
  | raw bytes => "Raw(" ++ bytesText bytes ++ ")"
  | dateTime micros => "DateTime(" ++ Text.decimal micros.val ++ ")"
  | handle word => "Handle(" ++ wordText word ++ ")"

end Value

namespace Host

/-- The value of a host value. -/
def toValue : (ty : ValueType) → Host ty → Value
  | .bool, b => .bool b
  | .int t, n => .int t n
  | .float p, x => .float p x
  | .string, s => .string s
  | .raw, bytes => .raw bytes
  | .dateTime, d => .dateTime (DateTime.micros d)
  | .handle, word => .handle word

/-- The diagnostic text of a host value. -/
def text : (ty : ValueType) → Host ty → String
  | .bool, b => boolText b
  | .int _, n => Text.decimal n.val
  | .float _, x => Decimal.text x
  | .string, s => Text.quoted s
  | .raw, bytes => bytesText bytes
  | .dateTime, d => DateTime.text d
  | .handle, word => wordText word

end Host
end DbClient
