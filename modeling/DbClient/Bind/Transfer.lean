import DbClient.World

/-! Transfer of data between host variables and the buffers of bind objects: into the buffers before
an execution, out of them after it. An exchange with a vector takes as many elements as the buffer,
the array and the vector all have room for, and never changes the length of the vector. -/
namespace DbClient
namespace BindObject

/-- Gives a planned object its buffer. -/
def place (plan : BindPlan) (w : World) : BindObject × World :=
  let (buffer, w) := w.allocate (plan.elemSize * plan.elemCount)
  ({ plan with buffer := buffer }, w)

/-- Makes a planned object, whose lengths have to fit. -/
def make (plan : BindPlan) : Act BindObject := do
  if plan.Fits then modifyGet (place plan) else throw .overflow

/-- The cell of the element with an index, counted from zero. -/
def cell (o : BindObject) (i : Nat) (w : World) : List UInt8 :=
  slice (w.bufferBytes o.buffer) (i * o.elemSize) o.elemSize

/-- Tells the native library the actual length of an element. -/
def reportSize (o : BindObject) (stmt : Address) (pos size : Nat) : Act Unit :=
  Act.require id (Library.setDataSize stmt o.name pos size)

/-- The actual length of an element, cut to what an element can hold. -/
def askSize (o : BindObject) (stmt : Address) (pos limit : Nat) : Act Nat := do
  let size ← Act.require id (Library.dataSize stmt o.name pos)
  pure (min size limit)

/-! ### Single values -/

def pushCell (o : BindObject) (ty : ValueType) (x : Host ty) : Act Unit := do
  Act.update (World.writeBuffer o.buffer 0 (Host.bytes ty x))
  Act.note (.pushedValue o.name ty)

def pullCell (o : BindObject) (ty : ValueType) : Act Unit := do
  match Host.ofBytes? ty (o.cell 0 (← get)) with
  | none => throw (.conversion ty)
  | some x =>
    Act.update (World.setVar o.var (.single ty x))
    Act.note (.pulledValue o.name ty)

def pushText (o : BindObject) (stmt : Address) (size : Nat) (ty : ValueType) (x : Host ty) : Act Unit := do
  let (count, bytes) := Host.fill ty x size
  Act.update (World.writeBuffer o.buffer 0 (bytes ++ [0]))
  o.reportSize stmt 1 count
  Act.note (.pushedBytes o.name count size)

def pullText (o : BindObject) (stmt : Address) (size : Nat) (ty : ValueType) : Act Unit := do
  let count ← o.askSize stmt 1 size
  match Host.ofBytes? ty ((o.cell 0 (← get)).take count) with
  | none => throw (.conversion ty)
  | some x =>
    Act.update (World.setVar o.var (.single ty x))
    Act.note (.pulledBytes o.name count)

/-! ### Vectors -/

/-- Copies elements into their cells, the first one into the cell with the index `i`. -/
def pushFrom (o : BindObject) (stmt : Address) (ty : ValueType) (i : Nat) : List (Host ty) → Act Unit
  | [] => pure ()
  | x :: rest => do
    let (size, bytes) := Host.writeElement ty x (o.cell i (← get))
    Act.update (World.writeBuffer o.buffer (i * o.elemSize) bytes)
    if ty.isVariable then o.reportSize stmt (i + 1) size
    pushFrom o stmt ty (i + 1) rest

def pushVector (o : BindObject) (stmt : Address) (arraySize : Nat) (ty : ValueType)
    (xs : List (Host ty)) : Act Unit := do
  let count := o.count arraySize xs.length
  o.pushFrom stmt ty 0 (xs.take count)
  Act.note (.pushedElements o.name count xs.length)

/-- Copies `count` cells, the first of them with the index `i`, into the vector; what was copied
before an element that fails has arrived. -/
def pullFrom (o : BindObject) (stmt : Address) (ty : ValueType) (xs : List (Host ty)) (i : Nat) :
    Nat → Act Unit
  | 0 => pure ()
  | count + 1 => do
    let size ← if ty.isVariable then o.askSize stmt (i + 1) (o.elemSize - 1) else pure o.elemSize
    match Host.ofBytes? ty ((o.cell i (← get)).take size) with
    | none => throw (.conversion ty)
    | some x =>
      let xs := xs.set i x
      Act.update (World.setVar o.var (.vector ty xs))
      pullFrom o stmt ty xs (i + 1) count

def pullVector (o : BindObject) (stmt : Address) (arraySize : Nat) (ty : ValueType)
    (xs : List (Host ty)) : Act Unit := do
  let count := o.count arraySize xs.length
  o.pullFrom stmt ty xs 0 count
  Act.note (.pulledElements o.name count)

/-! ### All forms -/

/-- Copies the variable into the buffer. A value of fixed length that is a handle travels whatever
the direction, for the database may write through it. -/
def push (o : BindObject) (stmt : Address) (arraySize : Nat) : Act Unit := do
  match (← get).vars.get? o.var, o.form with
  | some (.single ty x), .text size => if o.direction.isIn then o.pushText stmt size ty x
  | some (.single ty x), _ => if o.direction.isIn || ty.isHandle then o.pushCell ty x
  | some (.vector ty xs), _ =>
    if o.direction.isIn || ty.isHandle then o.pushVector stmt arraySize ty xs
  | none, _ => pure ()

/-- Copies the buffer into the variable. -/
def pull (o : BindObject) (stmt : Address) (arraySize : Nat) : Act Unit := do
  if o.direction.isOut then
    match (← get).vars.get? o.var, o.form with
    | some (.single ty _), .text size => o.pullText stmt size ty
    | some (.single ty _), _ => o.pullCell ty
    | some (.vector ty xs), _ => o.pullVector stmt arraySize ty xs
    | none, _ => pure ()

/-- Applies an exchange to objects in order; an error tells the name of its object. -/
def exchangeAll (exchange : BindObject → Act Unit) : List BindObject → Act Unit
  | [] => pure ()
  | o :: rest => do
    Act.dressed (ClientError.withBind o.name) (exchange o)
    exchangeAll exchange rest

end BindObject

namespace BindsHolder

/-- Copies all variables into their buffers. -/
def push (h : BindsHolder) (stmt : Address) (arraySize : Nat) : Act Unit :=
  BindObject.exchangeAll (fun o => o.push stmt arraySize) h.objects

/-- Copies all buffers into their variables. -/
def pull (h : BindsHolder) (stmt : Address) (arraySize : Nat) : Act Unit :=
  BindObject.exchangeAll (fun o => o.pull stmt arraySize) h.objects

end BindsHolder
end DbClient
