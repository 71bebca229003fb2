import DbClient.Error
import DbClient.Native.Bound

/-! Bind objects: a host variable bound under a name, with the buffer through which its data travel. The buffer is made
with the object and keeps its length. -/
namespace DbClient

-- a power is the one of core, whichever others are in scope
attribute [local instance (high)] instPowNat

/-! ### Host variables -/

/-- A variable of the application, which statements read and write. It never changes its type, nor whether it holds one
value or a vector of them. -/
inductive HostVar where
  | single (ty : ValueType) (value : Host ty)
  | vector (ty : ValueType) (items : List (Host ty))
  deriving DecidableEq

namespace HostVar

def ty : HostVar → ValueType
  | single ty _ => ty
  | vector ty _ => ty

/-- The diagnostic text of a variable. -/
def text : HostVar → String
  | single ty x => "HostVar(" ++ Host.text ty x ++ ")"
  | vector ty xs => "HostVar(" ++ bracketed (xs.map (Host.text ty)) ++ ")"

end HostVar

/-! ### Indices -/

/-- A way to point at a variable of a statement: by name, or by position, which stands for the name made of a colon and
the number. -/
inductive BindIndex where
  | name (s : String)
  | position (n : Nat)
  deriving Repr, DecidableEq

namespace BindIndex

/-- The greatest number that a size or a position can be. -/
def maxSize : Nat := 2 ^ (64 : Nat) - 1

def text : BindIndex → String
  | name s => s
  | position n => ":" ++ Text.decimal n

/-- The name of the variable; positions count from one. -/
def toName : BindIndex → Except ClientError String
  | name s => .ok s
  | position n => if n = 0 then .error (.outOfBounds "bind position" 0 1 maxSize) else .ok (position n).text

end BindIndex

/-! ### Objects -/

/-- How a variable is laid out in its buffer: one value of fixed length, one value of at most `size`
bytes, or a vector whose elements lie `elemSize` bytes apart. -/
inductive BindForm where
  | cell
  | text (size : Nat)
  | vector (kind : VectorKind) (elemSize elemCount : Nat)
  deriving Repr, DecidableEq

/-- The plan of a bind object, before its buffer is made. -/
structure BindPlan where
  name : String
  var : Nat
  direction : Direction
  ty : ValueType
  form : BindForm
  deriving Repr, DecidableEq

namespace BindPlan

def elemSize (o : BindPlan) : Nat :=
  match o.form with
  | .cell => o.ty.size?.getD 0
  | .text size => size + 1
  | .vector _ elemSize _ => elemSize

def elemCount (o : BindPlan) : Nat :=
  match o.form with
  | .vector _ _ elemCount => elemCount
  | _ => 1

/-- The greatest length of a table, zero for everything else. -/
def tableLength (o : BindPlan) : Nat :=
  match o.form with
  | .vector .table _ elemCount => elemCount
  | _ => 0

/-- Plans to bind a single value. A size of zero stands for the present length of the value. -/
def single (name : String) (var : Nat) (direction : Direction) (size : Nat) (ty : ValueType) (x : Host ty) :
    BindPlan :=
  let form : BindForm := if ty.isVariable
    then .text (if size = 0 then max (Host.bytes ty x).length 1 else size) else .cell
  ⟨name, var, direction, ty, form⟩

/-- Plans to bind a vector. A size of zero stands for the length of the longest element. A regular
vector gets as many elements as the array has, a table as many as the vector has. -/
def vector (name : String) (var : Nat) (direction : Direction) (kind : VectorKind) (size arraySize : Nat)
    (ty : ValueType) (xs : List (Host ty)) : BindPlan :=
  let longest := (xs.map (Host.elementLength ty)).foldl max 0
  let size := if size = 0 then max longest 1 else size
  let count := match kind with
    | .regular => arraySize
    | .table => xs.length
  ⟨name, var, direction, ty, .vector kind (ty.stride size) count⟩

/-- Plans to bind a variable as what it is. -/
def ofVar (name : String) (var : Nat) (direction : Direction) (kind : VectorKind) (size arraySize : Nat) :
    HostVar → BindPlan
  | .single ty x => single name var direction size ty x
  | .vector ty xs => vector name var direction kind size arraySize ty xs

/-- The number of elements that take part in an exchange, when the array and the vector have the
given lengths. -/
def count (o : BindPlan) (arraySize length : Nat) : Nat :=
  match o.form with
  | .vector .regular _ elemCount => min (min elemCount arraySize) length
  | .vector .table _ elemCount => min elemCount length
  | _ => 1

/-- The greatest length of a buffer. -/
def maxLength : Nat := 2 ^ (63 : Nat) - 1

/-- An element has a length that fits into a word, and all of them together fit into a buffer. -/
def Fits (o : BindPlan) : Prop := o.elemSize ≤ BindIndex.maxSize ∧ o.elemSize * o.elemCount ≤ maxLength

instance (o : BindPlan) : Decidable o.Fits := inferInstanceAs (Decidable (_ ∧ _))

/-- The description of the object's buffer. -/
def desc (o : BindPlan) (buffer : Nat) : BindDesc :=
  { name := o.name, ty := o.ty, buffer := buffer, elemSize := o.elemSize, elemCount := o.elemCount,
    tableLength := o.tableLength, direction := o.direction }

/-- The diagnostic text of an object. -/
def text (o : BindPlan) : String :=
  "BindObject \x7b name: " ++ Text.quoted o.name ++ ", direction: " ++ o.direction.name ++ ", type: "
    ++ o.ty.name ++ " \x7d"

end BindPlan

/-- A bind object: its plan and the buffer that it owns. -/
structure BindObject extends BindPlan where
  buffer : Nat
  deriving Repr, DecidableEq

def BindObject.desc (o : BindObject) : BindDesc := o.toBindPlan.desc o.buffer

end DbClient
