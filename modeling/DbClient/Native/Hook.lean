import DbClient.Native.Bound

/-! Scripted hooks: what the database does to the bound variables while a statement is executed.
Each action reports a result. -/
namespace DbClient

inductive HookAction where
  | sql
  | iterations
  | elementCount (name : String)
  | read (name : String) (pos : Nat) (ty : ValueType)
  | write (name : String) (pos : Nat) (datum : Datum)
  | readBytes (name : String) (pos : Nat)
  | readText (name : String) (pos : Nat)
  | writeBytes (name : String) (pos : Nat) (bytes : List UInt8)
  | append (name : String) (suffix : String)
  | sequence (name : String) (start : Int)

inductive HookResult where
  | nothing
  | flag (b : Bool)
  | count (n : Nat)
  | text (s : String)
  | bytes (bs : List UInt8)
  | datum (d : Datum)
  | flags (bs : List Bool)

/-- What a hook works on. -/
structure HookState where
  binds : Assoc String Bound
  memory : Memory

namespace HookState

def data? (s : HookState) (name : String) (pos : Nat) : Option (List UInt8) :=
  (s.binds.get? name).bind fun b => b.data? s.memory pos

def cell? (s : HookState) (name : String) (pos : Nat) : Option (List UInt8) :=
  (s.binds.get? name).bind fun b => b.cell? s.memory pos

def text? (s : HookState) (name : String) (pos : Nat) : Option String :=
  (s.data? name pos).bind Text.Utf8.decode?

/-- Writes a value of fixed length into a cell that is long enough. -/
def write (s : HookState) (name : String) (pos : Nat) (d : Datum) : Bool × HookState :=
  match s.binds.get? name, s.cell? name pos with
  | some b, some cell =>
    let bytes := Host.bytes d.ty d.value
    if bytes.length ≤ cell.length then (true, { s with memory := b.store pos bytes s.memory })
    else (false, s)
  | _, _ => (false, s)

/-- Writes bytes into a cell, cut to leave its last byte, zeros behind them, and sets the actual
length. -/
def writeBytes (s : HookState) (name : String) (pos : Nat) (bytes : List UInt8) : Bool × HookState :=
  match s.binds.get? name, s.cell? name pos with
  | some b, some cell =>
    let data := bytes.take (cell.length - 1)
    (true, { binds := s.binds.put name (b.setSize pos data.length),
             memory := b.store pos (zeroFilled cell.length data) s.memory })
  | _, _ => (false, s)

/-- Applies a write at each position of a list, in order. -/
def forPositions (f : HookState → Nat → Bool × HookState) : List Nat → HookState → List Bool × HookState
  | [], s => ([], s)
  | pos :: rest, s =>
    let (b, s) := f s pos
    let (bs, s) := forPositions f rest s
    (b :: bs, s)

/-- Performs an action during the execution of a statement. -/
def perform (sql : String) (iters : Nat) (s : HookState) : HookAction → HookResult × HookState
  | .sql => (.text sql, s)
  | .iterations => (.count iters, s)
  | .elementCount name => (((s.binds.get? name).map fun b => .count b.elemCount).getD .nothing, s)
  | .read name pos ty =>
    let found : Option HookResult := do
      let cell ← s.cell? name pos
      if ty.size?.getD 0 ≤ cell.length then
        (Host.ofBytes? ty cell).map fun x => .datum ⟨ty, x⟩
      else none
    (found.getD .nothing, s)
  | .write name pos d => let (b, s) := s.write name pos d; (.flag b, s)
  | .readBytes name pos => (((s.data? name pos).map .bytes).getD .nothing, s)
  | .readText name pos => (((s.text? name pos).map .text).getD .nothing, s)
  | .writeBytes name pos bytes => let (b, s) := s.writeBytes name pos bytes; (.flag b, s)
  | .append name suffix =>
    let count := ((s.binds.get? name).map Bound.elemCount).getD 0
    let (bs, s) := forPositions
      (fun s pos => s.writeBytes name pos (Text.Utf8.bytes ((s.text? name pos).getD "" ++ suffix)))
      (List.range' 1 count) s
    (.flags bs, s)
  | .sequence name start =>
    let (bs, s) := forPositions
      (fun s pos => s.write name pos ⟨.int .int64, Fixed.wrap .int64 (start + pos)⟩)
      (List.range' 1 iters) s
    (.flags bs, s)

/-- Performs the actions of a hook in order. -/
def performAll (sql : String) (iters : Nat) : List HookAction → HookState → List HookResult × HookState
  | [], s => ([], s)
  | a :: rest, s =>
    let (r, s) := s.perform sql iters a
    let (rs, s) := performAll sql iters rest s
    (r :: rs, s)

end HookState
end DbClient
