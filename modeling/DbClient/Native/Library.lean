import DbClient.Error
import DbClient.Native.Cursor
import DbClient.Native.Hook

/-! The native library: handles, attributes, statements and resultsets behind a set of primitives.
What a statement returns and does to its variables is scripted. A primitive that fails leaves an
error, and any primitive can be made to fail once. -/
namespace DbClient

/-- The primitives in which a failure can be injected. -/
inductive Primitive where
  | create | destroy | getAttr | setAttr | prepare | bind | register | dataSize | execute
  | resultset | fetch | columnValue | breakCall
  deriving Repr, DecidableEq

namespace Primitive

def all : List Primitive :=
  [create, destroy, getAttr, setAttr, prepare, bind, register, dataSize, execute, resultset, fetch,
    columnValue, breakCall]

def name : Primitive → String
  | create => "Create"
  | destroy => "Destroy"
  | getAttr => "GetAttr"
  | setAttr => "SetAttr"
  | prepare => "Prepare"
  | bind => "Bind"
  | register => "Register"
  | dataSize => "DataSize"
  | execute => "Execute"
  | resultset => "Resultset"
  | fetch => "Fetch"
  | columnValue => "ColumnValue"
  | breakCall => "Break"

end Primitive

/-- A statement of the native library. -/
structure NativeStatement where
  prepared : Option (String × PrepareMode)
  binds : Assoc String Bound
  registered : List (String × ValueType × Nat)
  resultsets : List Address
  cursor : Option Nat

def NativeStatement.fresh : NativeStatement := ⟨none, ∅, [], [], none⟩

/-- What one execution found in the bound variables. -/
structure Execution where
  sql : String
  iters : Nat
  binds : List (String × List (List UInt8))
  deriving DecidableEq

/-- The recorded variables in the order of their names. -/
def Execution.sorted (e : Execution) : List (String × List (List UInt8)) :=
  e.binds.mergeSort fun a b => a.1 ≤ b.1

/-- Where a handle comes from: it was created under another one, or under none if that is null, or an
execution of a statement opened it. -/
inductive Origin where
  | created (parent : Address)
  | opened (stmt : Address)
  deriving Repr, DecidableEq

/-- A call of a primitive with a handle, and the handles that were there when it was made. The two
questions about a resultset that cannot be made to fail go without a name. -/
structure Call where
  op : Option Primitive
  handle : Address
  alive : Assoc Address HandleKind
  deriving Repr, DecidableEq

structure Library where
  next : Nat
  handles : Assoc Address HandleKind
  /-- The origin of each handle that ever was. -/
  origins : Assoc Address Origin
  destroyed : List (HandleKind × Address)
  attrs : Assoc (Address × Attr) Value
  stmts : Assoc Address NativeStatement
  rsets : Assoc Address Cursor
  scripts : Assoc String (List (List (List Value)))
  hooks : Assoc String (List HookAction)
  failures : Assoc Primitive NativeError
  error : Option NativeError
  executions : List Execution
  breaks : Nat
  serverVersion : String
  /-- All calls so far. -/
  calls : List Call

namespace Library

/-- A library without handles, of a server of version 19.3. -/
def fresh : Library :=
  { next := 0x1000, handles := ∅, origins := ∅, destroyed := [], attrs := ∅, stmts := ∅, rsets := ∅,
    scripts := ∅, hooks := ∅, failures := ∅, error := none, executions := [], breaks := 0,
    serverVersion := "19.3.0.0.0", calls := [] }

/-! ### Scripting and inspection -/

def setServerVersion (l : Library) (version : String) : Library := { l with serverVersion := version }

/-- Adds a resultset to the chain that each execution of a text returns. -/
def addResultset (l : Library) (sql : String) (rows : List (List Value)) : Library :=
  { l with scripts := l.scripts.put sql ((l.scripts.get? sql).getD [] ++ [rows]) }

/-- Sets what happens during each execution of a text. -/
def onExecute (l : Library) (sql : String) (actions : List HookAction) : Library :=
  { l with hooks := l.hooks.put sql actions }

/-- The next call of a primitive fails with the given error. -/
def failNext (l : Library) (op : Primitive) (e : NativeError) : Library :=
  { l with failures := l.failures.put op e }

def isAlive (l : Library) (h : Address) : Bool := l.handles.contains h

/-- The number of handles of a kind. -/
def aliveCount (l : Library) (kind : HandleKind) : Nat := (l.handles.values.filter (· = kind)).length

def bound? (l : Library) (stmt : Address) (name : String) : Option Bound :=
  (l.stmts.get? stmt).bind fun st => st.binds.get? name

def bindCount (l : Library) (stmt : Address) : Nat :=
  ((l.stmts.get? stmt).map fun st => st.binds.size).getD 0

def registered (l : Library) (stmt : Address) : List (String × ValueType × Nat) :=
  ((l.stmts.get? stmt).map NativeStatement.registered).getD []

def prepared? (l : Library) (stmt : Address) : Option (String × PrepareMode) :=
  (l.stmts.get? stmt).bind NativeStatement.prepared

def attr? (l : Library) (h : Address) (attr : Attr) : Option Value := l.attrs.get? (h, attr)

/-- The diagnostic text of the library. -/
def text (l : Library) : String :=
  "MemoryNative \x7b handles: " ++ Text.decimal l.handles.size ++ ", executions: "
    ++ Text.decimal l.executions.length ++ ", server_version: " ++ Text.quoted l.serverVersion ++ " \x7d"

/-! ### Failing -/

/-- Leaves an error. -/
def fail {α : Type} (e : NativeError) (l : Library) : Option α × Library := (none, { l with error := some e })

/-- Keeps a call in memory. -/
def called (op : Option Primitive) (h : Address) (l : Library) : Library :=
  { l with calls := l.calls ++ [⟨op, h, l.handles⟩] }

/-- Runs a primitive on a handle: the last error is forgotten, and an injected failure fires instead
of the primitive. -/
def run {α : Type} (op : Primitive) (h : Address) (body : Library → Option α × Library) (l : Library) :
    Option α × Library :=
  let l := l.called op h
  match l.failures.get? op with
  | some e => fail e { l with failures := l.failures.erase op }
  | none => body { l with error := none }

/-- Takes the last error. -/
def takeError (l : Library) : Option NativeError × Library := (l.error, { l with error := none })

/-- The last error; if there is none, the failure is of an unknown cause. -/
def lastError (l : Library) : NativeError × Library := (l.error.getD (.unknown (-1)), { l with error := none })

/-! ### Handles and attributes -/

/-- Hands out a new handle. -/
def allocate (kind : HandleKind) (origin : Origin) (l : Library) : Address × Library :=
  let h : Address := ⟨l.next + 0x10⟩
  (h, { l with
    next := l.next + 0x10, handles := l.handles.put h kind, origins := l.origins.put h origin })

/-- Forgets the resultsets of a statement. -/
def dropResultsets (stmt : Address) (l : Library) : Library :=
  match l.stmts.get? stmt with
  | none => l
  | some st =>
    { l with
      stmts := l.stmts.put stmt { st with resultsets := [], cursor := none }
      rsets := st.resultsets.foldl Assoc.erase l.rsets
      handles := st.resultsets.foldl Assoc.erase l.handles }

/-- Creates a handle under a parent, which has to exist unless it is null. -/
def create (kind : HandleKind) (parent : Address) : Library → Option Address × Library :=
  run .create parent fun l =>
    if !parent.isNull && !l.isAlive parent then fail .invalidHandle l
    else
      let (h, l) := l.allocate kind (.created parent)
      (some h, if kind = .statement then { l with stmts := l.stmts.put h .fresh } else l)

/-- Destroys a handle with all that belongs to it. -/
def destroy (kind : HandleKind) (h : Address) : Library → Option Unit × Library :=
  run .destroy h fun l =>
    if !l.isAlive h then fail .invalidHandle l
    else
      let l := dropResultsets h { l with handles := l.handles.erase h }
      (some (), { l with
        stmts := l.stmts.erase h
        attrs := ⟨l.attrs.pairs.filter fun p => p.1.1 ≠ h⟩
        destroyed := l.destroyed ++ [(kind, h)] })

/-- The text in which the server presents itself. -/
def banner (l : Library) : String :=
  "Oracle Database Enterprise Edition Release " ++ l.serverVersion ++ " - Production"

def getAttr (h : Address) (attr : Attr) : Library → Option Value × Library :=
  run .getAttr h fun l =>
    if !l.isAlive h then fail .invalidHandle l
    else if attr = .serverVersion then (some (.string l.banner), l)
    else match l.attr? h attr with
      | some v => (some v, l)
      | none => fail (.single 24315 "illegal attribute type") l

def setAttr (h : Address) (attr : Attr) (v : Value) : Library → Option Unit × Library :=
  run .setAttr h fun l =>
    if !l.isAlive h then fail .invalidHandle l
    else (some (), { l with attrs := l.attrs.put (h, attr) v })

/-! ### Statements -/

/-- Gives a statement a text, which may not be blank. Its variables and resultsets are forgotten. -/
def prepare (stmt : Address) (sql : String) (mode : PrepareMode) : Library → Option Unit × Library :=
  run .prepare stmt fun l =>
    if !l.stmts.contains stmt then fail .invalidHandle l
    else if Text.trim sql.toList = [] then fail (.single 900 "invalid SQL statement") l
    else
      let l := dropResultsets stmt l
      (some (), { l with
        attrs := l.attrs.erase (stmt, .rowCount)
        stmts := l.stmts.modify stmt fun st =>
          { st with prepared := some (sql, mode), binds := ∅, registered := [] } })

/-- Continues with a statement that has a text. -/
def withPrepared {α : Type} (stmt : Address) (body : NativeStatement → String → Library → Option α × Library)
    (l : Library) : Option α × Library :=
  match l.stmts.get? stmt with
  | none => fail .invalidHandle l
  | some st =>
    match st.prepared with
    | none => fail (.single 24337 "statement handle not prepared") l
    | some (sql, _) => body st sql l

/-- Binds a buffer under a name; a buffer bound under the name before gives way in place. -/
def bind (stmt : Address) (d : BindDesc) : Library → Option Unit × Library :=
  run .bind stmt <| withPrepared stmt fun st _ l =>
    (some (), { l with stmts := l.stmts.put stmt { st with binds := st.binds.put d.name (.ofDesc d) } })

/-- Registers a variable that the statement returns. -/
def register (stmt : Address) (name : String) (ty : ValueType) (maxLength : Nat) :
    Library → Option Unit × Library :=
  run .register stmt <| withPrepared stmt fun st _ l =>
    let others := st.registered.filter fun r => r.1 ≠ name
    (some (), { l with
      stmts := l.stmts.put stmt { st with registered := others ++ [(name, ty, maxLength)] } })

/-- Continues with a bound variable that has the given position. -/
def withBound {α : Type} (stmt : Address) (name : String) (pos : Nat)
    (body : Bound → Library → Option α × Library) (l : Library) : Option α × Library :=
  match l.bound? stmt name with
  | none => fail (.single 1036 "illegal variable name/number") l
  | some b =>
    if b.HasPosition pos then body b l else fail (.single 22165 "given index is out of range") l

/-- The actual length of an element. -/
def dataSize (stmt : Address) (name : String) (pos : Nat) : Library → Option Nat × Library :=
  run .dataSize stmt <| withBound stmt name pos fun b l => (some (b.sizeAt pos), l)

/-- Sets the actual length of an element, which has to fit its cell. -/
def setDataSize (stmt : Address) (name : String) (pos size : Nat) : Library → Option Unit × Library :=
  run .dataSize stmt <| withBound stmt name pos fun b l =>
    if size ≤ b.elemSize then
      (some (), { l with stmts := l.stmts.modify stmt fun st =>
        { st with binds := st.binds.put name (b.setSize pos size) } })
    else fail (.single 1460 "unimplemented or unreasonable conversion requested") l

/-- Makes a handle for each scripted resultset of a statement. -/
def openResultsets (stmt : Address) : List (List (List Value)) → Library → List Address × Library
  | [], l => ([], l)
  | rows :: rest, l =>
    let (h, l) := l.allocate .resultset (.opened stmt)
    let (hs, l) := openResultsets stmt rest { l with rsets := l.rsets.put h ⟨rows, 0⟩ }
    (h :: hs, l)

/-- Executes a statement: records what its variables hold, runs the hook of its text on them and
makes the scripted resultsets. Returns what the hook reported and the memory after it. -/
def execute (stmt : Address) (iters : Nat) (memory : Memory) :
    Library → Option (List HookResult × Memory) × Library :=
  run .execute stmt <| withPrepared stmt fun _ sql l =>
    let l := dropResultsets stmt l
    let binds := ((l.stmts.get? stmt).map NativeStatement.binds).getD ∅
    let found := binds.pairs.map fun p => (p.1, p.2.contents memory)
    let (results, s) := HookState.performAll sql iters ((l.hooks.get? sql).getD []) ⟨binds, memory⟩
    let (opened, l) := openResultsets stmt ((l.scripts.get? sql).getD []) l
    let affected := if opened = [] then iters else 0
    (some (results, s.memory), { l with
      stmts := l.stmts.modify stmt fun st => { st with binds := s.binds, resultsets := opened }
      attrs := l.attrs.put (stmt, .rowCount) (.int .uint64 (Fixed.wrap .uint64 affected))
      executions := l.executions ++ [⟨sql, iters, found⟩] })

/-! ### Resultsets -/

/-- The first resultset of a statement. None without an error means that there is none. -/
def resultset (stmt : Address) : Library → Option Address × Library :=
  run .resultset stmt fun l =>
    match l.stmts.get? stmt with
    | none => fail .invalidHandle l
    | some st =>
      match st.resultsets with
      | [] => (none, l)
      | h :: _ => (some h, { l with stmts := l.stmts.put stmt { st with cursor := some 0 } })

/-- The resultset after the one that was taken last. -/
def nextResultset (stmt : Address) : Library → Option Address × Library :=
  run .resultset stmt fun l =>
    match l.stmts.get? stmt with
    | none => fail .invalidHandle l
    | some st =>
      let next := (st.cursor.map (· + 1)).getD 0
      (st.resultsets[next]?, { l with
        stmts := l.stmts.put stmt { st with cursor := some (min next st.resultsets.length) } })

/-- Moves the cursor of a resultset. None without an error means that there is no such row. -/
def fetch (rs : Address) (op : FetchOp) : Library → Option Unit × Library :=
  run .fetch rs fun l =>
    match l.rsets.get? rs with
    | none => fail .invalidHandle l
    | some c =>
      let (moved, c) := c.fetch op
      (if moved then some () else none, { l with rsets := l.rsets.put rs c })

/-- The number of the current row; leaves the last error alone. -/
def currentRow (rs : Address) (l : Library) : Option Nat × Library :=
  ((l.rsets.get? rs).map Cursor.currentRow, l.called none rs)

/-- The number of columns; touches the last error only to leave one. -/
def columnCount (rs : Address) (l : Library) : Option Nat × Library :=
  match l.rsets.get? rs with
  | none => fail .invalidHandle (l.called none rs)
  | some c => (some c.columnCount, l.called none rs)

/-- A column of the current row, counted from one. -/
def columnValue (rs : Address) (index : Nat) : Library → Option Value × Library :=
  run .columnValue rs fun l =>
    match l.rsets.get? rs with
    | none => fail .invalidHandle l
    | some c =>
      match c.row? with
      | none => fail (.single 1002 "fetch out of sequence") l
      | some row =>
        match if index = 0 then none else row[index - 1]? with
        | some v => (some v, l)
        | none => fail (.single 1007 "variable not in select list") l

/-- Interrupts the call that a connection waits for. -/
def breakCall (conn : Address) : Library → Option Unit × Library :=
  run .breakCall conn fun l =>
    if !l.isAlive conn then fail .invalidHandle l else (some (), { l with breaks := l.breaks + 1 })

end Library
end DbClient
