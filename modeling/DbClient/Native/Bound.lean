import DbClient.Assoc
import DbClient.Kind
import DbClient.Value.Cell

/-! Variables bound to a statement as the native library sees them: the description of a buffer that
belongs to the client, and the actual length of each of its elements. Positions count from one. -/
namespace DbClient

/-- The buffers of the client, under keys that are never handed out twice. -/
abbrev Memory : Type := Table (List UInt8)

/-- The description of a buffer that is handed over when a variable is bound. `tableLength` is the
greatest length of a table, zero for everything else. -/
structure BindDesc where
  name : String
  ty : ValueType
  buffer : Nat
  elemSize : Nat
  elemCount : Nat
  tableLength : Nat
  direction : Direction
  deriving Repr, DecidableEq

/-- The length of the whole buffer. -/
def BindDesc.length (d : BindDesc) : Nat := d.elemSize * d.elemCount

/-- A bound variable. -/
structure Bound where
  ty : ValueType
  buffer : Nat
  elemSize : Nat
  elemCount : Nat
  tableLength : Nat
  direction : Direction
  sizes : List Nat
  deriving Repr, DecidableEq

namespace Bound

/-- A freshly bound variable: elements of variable length are empty, others are complete. -/
def ofDesc (d : BindDesc) : Bound :=
  { ty := d.ty, buffer := d.buffer, elemSize := d.elemSize, elemCount := d.elemCount,
    tableLength := d.tableLength, direction := d.direction,
    sizes := List.replicate d.elemCount (if d.ty.isVariable then 0 else d.elemSize) }

/-- A position of an element. -/
def HasPosition (b : Bound) (pos : Nat) : Prop := 1 ≤ pos ∧ pos ≤ b.elemCount

instance (b : Bound) (pos : Nat) : Decidable (b.HasPosition pos) :=
  inferInstanceAs (Decidable (_ ∧ _))

def offset (b : Bound) (pos : Nat) : Nat := (pos - 1) * b.elemSize

/-- The cell of an element, as long as its buffer exists. -/
def cell? (b : Bound) (memory : Memory) (pos : Nat) : Option (List UInt8) :=
  if b.HasPosition pos then (memory.get? b.buffer).map fun bytes => slice bytes (b.offset pos) b.elemSize
  else none

def sizeAt (b : Bound) (pos : Nat) : Nat := b.sizes.getD (pos - 1) 0

def setSize (b : Bound) (pos size : Nat) : Bound := { b with sizes := b.sizes.set (pos - 1) size }

/-- The actual data of an element: all of a cell of fixed length, the front of another. -/
def data? (b : Bound) (memory : Memory) (pos : Nat) : Option (List UInt8) :=
  (b.cell? memory pos).map fun cell => if b.ty.isVariable then cell.take (b.sizeAt pos) else cell

/-- The actual data of all elements. -/
def contents (b : Bound) (memory : Memory) : List (List UInt8) :=
  (List.range' 1 b.elemCount).filterMap (b.data? memory)

/-- Lays bytes over the front of the cell of an element. -/
def store (b : Bound) (pos : Nat) (bytes : List UInt8) (memory : Memory) : Memory :=
  memory.modify b.buffer fun buffer => overlay buffer (b.offset pos) bytes

end Bound
end DbClient
