import DbClient.Bind.Transfer
import DbClient.Connection
import DbClient.Resultset

/-! Statements: texts that are prepared, given variables, executed and asked for resultsets. What a
statement keeps beside its handle lives with the handle, so that it goes when the handle is
released. -/
namespace DbClient

structure Statement where
  env : Nat
  /-- The statement holds its connection as long as it lives. -/
  conn : Connection
  handle : Wrapper
  deriving Repr, DecidableEq

namespace Statement

/-- Creates a statement without a text. -/
def create (conn : Connection) : Act Statement := do
  let w ← get
  if conn.handle.isNull w then throw (.nullHandle .connection)
  let parent := conn.handle.native w
  let native ← Act.require id (Library.create .statement parent)
  let handle ← Wrapper.adopt conn.env native .statement conn.handle .freeBinds
  Act.undoing handle.drop (handle.setExtra (.statement .fresh))
  Act.note (.allocated native parent)
  let conn ← modifyGet conn.clone
  pure ⟨conn.env, conn, handle⟩

/-- Gives up the connection, then the handle. -/
def drop (s : Statement) (w : World) : World := s.handle.drop (s.conn.drop w)

/-! ### Data beside the handle -/

def data? (s : Statement) (w : World) : Option StatementData :=
  match s.handle.extra? w with
  | some (.statement d) => some d
  | _ => none

def data (s : Statement) : Act StatementData := do
  match s.data? (← get) with
  | some d => pure d
  | none => throw (.nullHandle .statement)

/-- Replaces the data of a statement that has some. -/
def putData (s : Statement) (d : StatementData) (w : World) : World :=
  match s.handle.liveNode? w with
  | some (id, _) => w.modifyNode id fun n => { n with extra := some (.statement d) }
  | none => w

/-- Fails unless the statement has reached a stage. -/
def requireStatus (d : StatementData) (needed : Status) (operation : String) : Act Unit :=
  if d.status.rank < needed.rank then throw (.invalidState operation (.statusBelow d.status needed))
  else pure ()

/-! ### Preparation and execution -/

/-- Releases all resultsets of the statement and counts them. -/
def releaseResultsets (s : Statement) : Act Nat :=
  modifyGet (s.handle.releaseChildren fun n => n.kind = .resultset)

/-- Gives the statement a new text. All that was bound goes, even if the text is refused. -/
def prepare (s : Statement) (mode : PrepareMode) (sql : String) : Act Unit := do
  let stmt ← s.handle.live
  let _ ← s.releaseResultsets
  let d ← s.data
  let fresh := d.reset sql
  Act.update fun w => (s.putData fresh w).freeBuffers d.binds.buffers
  Act.require (fun e => (e.withSql (some sql)).withHandle stmt) (Library.prepare stmt sql mode)
  Act.update (s.putData { fresh with status := .ofMode mode })
  Act.note (.prepared stmt mode sql)

/-- Executes the native statement on the buffers; its hook leaves its results in the log. -/
def runNative (stmt : Address) (iters : Nat) (w : World) : Option Unit × World :=
  match Library.execute stmt iters w.memory w.library with
  | (some (results, memory), l) =>
    (some (), { w with library := l, memory := memory, log := w.log ++ results.map .hook })
  | (none, l) => (none, { w with library := l })

/-- Makes a statement ready to be executed: its resultsets go, and the variables travel into their
buffers. Gives the native statement and the data beside the handle. -/
def load (s : Statement) : Act (Address × StatementData) := do
  let stmt ← s.handle.live
  let _ ← s.releaseResultsets
  let d ← s.data
  requireStatus d .prepared "execute"
  Act.dressed (ClientError.withSql d.sql) (d.binds.push stmt d.arraySize)
  pure (stmt, d)

/-- Executes the prepared text as often as the array has elements: the variables travel into their
buffers before, and out of them after. -/
def executePrepared (s : Statement) : Act Unit := do
  let (stmt, d) ← s.load
  let done ← modifyGet (runNative stmt d.arraySize)
  Act.orFail (fun e => (e.withSql d.sql).withHandle stmt) done
  Act.update (s.putData { d with status := .executed })
  Act.dressed (ClientError.withSql d.sql) (d.binds.pull stmt d.arraySize)
  Act.note (.executed stmt d.arraySize)

def execute (s : Statement) (sql : String) : Act Unit := do
  s.prepare .prepare sql
  s.executePrepared

/-! ### Variables -/

/-- What stands against binding a variable of a type under a name. A name that is taken can be bound
again to the same type, if that is allowed; a new one not after an execution, nor beyond the limit.
-/
def bindObstacle? (d : StatementData) (maxBinds : Nat) (name : String) (ty : ValueType) :
    Option ClientError :=
  match d.binds.get? name with
  | some o =>
    if !d.allowRebinding then some (.bindAlreadyUsed name)
    else if o.ty ≠ ty then some (.rebindBadType name o.ty ty)
    else none
  | none =>
    if d.status = .executed then some (.invalidState "bind" .alreadyExecuted)
    else if maxBinds ≤ d.binds.size then some (.outOfBounds "bind count" (d.binds.size + 1) 1 maxBinds)
    else none

/-- Binds what a plan describes, for the data of the statement and a name. An object that the native
library refuses is lost with its buffer, one that a new object replaces gives up its own. -/
def bindPlanned (s : Statement) (index : BindIndex) (ty : ValueType)
    (plan : StatementData → String → BindPlan) : Act Unit := do
  let stmt ← s.handle.live
  let name ← Act.ofExcept index.toName
  let d ← s.data
  requireStatus d .prepared "bind"
  let maxBinds := (((← get).envs.get? s.env).map EnvState.maxBinds).getD 0
  match bindObstacle? d maxBinds name ty with
  | some e => throw e
  | none => pure ()
  let o ← BindObject.make (plan d name)
  Act.undoing (World.freeBuffers [o.buffer]) <|
    Act.require (fun e => (e.withSql d.sql).withBind name) (Library.bind stmt o.desc)
  Act.note (.bound stmt name o.ty o.direction)
  let (old, binds) := d.binds.add o d.allowRebinding
  Act.update fun w => (s.putData { d with binds := binds } w).freeBuffers (old.map BindObject.buffer).toList

/-- Binds a variable. A size of zero stands for the present length of its values. The buffer of a
vector is made for the greatest array that the statement can come to. -/
def bind (s : Statement) (index : BindIndex) (var : Nat) (direction : Direction) (kind : VectorKind)
    (size : Nat) : Act Unit := do
  match (← get).vars.get? var with
  | none => pure ()
  | some v =>
    s.bindPlanned index v.ty fun d name =>
      .ofVar name var direction kind size (max d.arraySize d.initialArraySize) v

/-- Registers a variable that the statement returns. -/
def register (s : Statement) (name : String) (ty : ValueType) (maxLength : Nat) : Act Unit := do
  let stmt ← s.handle.live
  let d ← s.data
  requireStatus d .prepared "register"
  if ty.isVariable ∧ maxLength < 1 then
    throw (.outOfBounds "returning value length" maxLength 1 BindIndex.maxSize)
  Act.require (fun e => (e.withSql d.sql).withBind name) (Library.register stmt name ty maxLength)

/-! ### Settings -/

/-- Sets the number of iterations; while variables are bound it cannot pass the size at the first
bind. -/
def setArraySize (s : Statement) (size : Nat) : Act Unit := do
  let stmt ← s.handle.live
  let d ← s.data
  requireStatus d .prepared "set_bind_array_size"
  let limit := if d.binds.isEmpty then BindIndex.maxSize else d.initialArraySize
  if size < 1 ∨ limit < size then throw (.outOfBounds "bind array size" size 1 limit)
  Act.require (ClientError.withSql d.sql)
    (Library.setAttr stmt .bindArraySize (.int .uint64 (Fixed.wrap .uint64 size)))
  Act.update (s.putData { d with
    arraySize := size, initialArraySize := if d.binds.isEmpty then size else d.initialArraySize })

def allowRebinding (s : Statement) (allow : Bool) : Act Unit := do
  let d ← s.data
  Act.update (s.putData { d with allowRebinding := allow })

/-- Sets the fetch mode; cursors that scroll need a server of version 9. -/
def setFetchMode (s : Statement) (mode : FetchMode) : Act Unit := do
  let stmt ← s.handle.live
  if mode = .scrollable then
    let version ← s.conn.serverVersion
    if version.compare (.ofParts [9]) = .lt then throw (.unsupported "scrollable cursor" version)
  Act.require id (Library.setAttr stmt .fetchMode (.bool (mode = .scrollable)))
  let d ← s.data
  Act.update (s.putData { d with fetchMode := mode })

/-- The number of rows that the last execution touched. -/
def affectedRows (s : Statement) : Act (Fixed .uint64) := do
  let stmt ← s.handle.live
  let v ← Act.require id (Library.getAttr stmt .rowCount)
  match v.toHost? (.int .uint64) with
  | some n => pure n
  | none => throw (.conversion (.int .uint64))

/-- The table length told to the native library for a bound variable. -/
def tableLength? (s : Statement) (name : String) : Act (Option Nat) := do
  let d ← s.data
  pure ((d.binds.get? name).map fun o => o.tableLength)

/-! ### Resultsets -/

/-- Asks the native library for a resultset of the executed statement. -/
def takeResultset (s : Statement) (operation : String)
    (ask : Address → Library → Option Address × Library) : Act (Option Resultset) := do
  let stmt ← s.handle.live
  let d ← s.data
  requireStatus d .executed operation
  match ← Act.optional (fun e => (e.withSql d.sql).withHandle stmt) (ask stmt) with
  | none => pure none
  | some h =>
    let handle ← Wrapper.wrap s.env h .resultset (some s.handle) false .nothing
    pure (some ⟨handle, d.sql, d.fetchMode = .scrollable⟩)

/-- The first resultset of the execution, if there is one. -/
def resultset (s : Statement) : Act (Option Resultset) := s.takeResultset "resultset" Library.resultset

/-- The resultset after the one taken last, if there is one. -/
def nextResultset (s : Statement) : Act (Option Resultset) :=
  s.takeResultset "next_resultset" Library.nextResultset

section
variable {σ α : Type}

/-- Walks over a resultset and the ones behind it in the chain. A resultset is dropped when the next
one is there, or when its walk fails; one behind the length of the chain is dropped at once. -/
def walkChain (s : Statement) (walk : Resultset → RowAct σ Nat) : Nat → Option Resultset → Nat → RowAct σ Nat
  | fuel + 1, some rs, total => do
    let (count, next) ← RowAct.sweeping rs.drop do
      let count ← walk rs
      let next ← RowAct.ofAct s.nextResultset
      pure (count, next)
    walkChain s walk fuel next (total + count)
  | 0, some rs, total => RowAct.sweeping rs.drop (pure total)
  | _, none, total => pure total

/-- The length of the chain of resultsets. -/
def chainLength (s : Statement) (w : World) : Nat :=
  ((w.library.stmts.get? (s.handle.native w)).map fun st => st.resultsets.length).getD 0

/-- Walks over all resultsets of the execution. Returns how many rows these walks accepted. -/
def walkAll (s : Statement) (walk : Resultset → RowAct σ Nat) : RowAct σ Nat := do
  let first ← RowAct.ofAct s.resultset
  let length := s.chainLength (← MonadState.get).2
  s.walkChain walk length first 0

/-- Calls back for each row of all resultsets of the execution. A row that is declined ends only its
own resultset. Returns how many rows were accepted. -/
def fetch (s : Statement) (callback : Resultset → RowAct σ Bool) : RowAct σ Nat :=
  s.walkAll fun rs => rs.forEach callback

/-- The same as `fetch` with a callback for what an adapter makes of each row. -/
def fetchAdapted (s : Statement) (callback : α → RowAct σ Bool) (adapter : Resultset → RowAct σ α) : RowAct σ Nat :=
  s.walkAll fun rs => rs.forEachAdapted callback adapter

end

/-- The diagnostic text of a statement. -/
def text (s : Statement) (w : World) : String :=
  "Statement \x7b handle: " ++ s.handle.text w ++ ", connection: " ++ (s.conn.handle.native w).text ++ " \x7d"

end Statement

/-- Creates a statement with a text; one whose text is refused is dropped. -/
def Connection.prepare (c : Connection) (sql : String) : Act Statement := do
  let s ← Statement.create c
  Act.undoing s.drop (s.prepare .prepare sql)
  pure s

end DbClient
