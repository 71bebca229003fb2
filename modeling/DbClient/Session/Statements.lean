import DbClient.Session.RowScript

/-! Commands for statements and resultsets. -/
namespace DbClient

inductive StatementCommand where
  | create (conn name : String)
  | createPrepared (conn sql name : String)
  /-- Copies the connection of a statement. -/
  | connection (stmt name : String)
  | prepare (stmt : String) (mode : PrepareMode) (sql : String)
  | execute (stmt sql : String)
  | executePrepared (stmt : String)
  | bind (stmt : String) (index : BindIndex) (var : String) (direction : Direction) (kind : VectorKind)
      (size : Nat)
  | register (stmt name : String) (ty : ValueType) (maxLength : Nat)
  | setArraySize (stmt : String) (size : Nat)
  | allowRebinding (stmt : String) (allow : Bool)
  | setFetchMode (stmt : String) (mode : FetchMode)
  | report (stmt : String)
  | affectedRows (stmt : String)
  | tableLength (stmt name : String)
  | resultset (stmt name : String)
  | nextResultset (stmt name : String)
  | releaseResultsets (stmt : String)
  /-- Walks over all rows, executing a text or the prepared one before if told so. -/
  | fetch (stmt : String) (script : RowScript) (adapted : Bool)
  | executeAndFetch (stmt sql : String) (script : RowScript) (adapted : Bool)
  | executePreparedAndFetch (stmt : String) (script : RowScript) (adapted : Bool)

inductive ResultsetCommand where
  | next (rs : String)
  | prev (rs : String)
  | first (rs : String)
  | last (rs : String)
  | seek (rs : String) (mode : SeekMode) (offset : Int)
  | currentRow (rs : String)
  | columnCount (rs : String)
  | isScrollable (rs : String)
  | get (rs : String) (index : Nat) (r : Request)
  | forEach (rs : String) (script : RowScript) (adapted : Bool)

namespace StatementCommand

def reportOf (s : Statement) (w : World) : StatementReport :=
  let data := match s.data? w with
    | some d => .ok d
    | none => .error (.nullHandle .statement)
  let h := s.handle.native w
  { data := data, nativeBinds := w.library.bindCount h, nativePrepared := w.library.prepared? h,
    connection := s.conn.handle.native w }

/-- An operation on a statement that has no result. -/
def perform (stmt : String) (f : Statement → Act Unit) : Turn Reply := do
  let s ← Turn.statement stmt
  Turn.ofAct (f s)
  pure .nothing

/-- Gives a resultset a name, if there is one. -/
def take (stmt name : String) (f : Statement → Act (Option Resultset)) : Turn Reply := do
  let s ← Turn.statement stmt
  match ← Turn.ofAct (f s) with
  | some rs => Reply.ofNewItem name (.resultset rs)
  | none => pure .nothing

/-- Walks over all rows after a preparation. -/
def walk (stmt : String) (before : Statement → Act Unit) (script : RowScript) (adapted : Bool) :
    Turn Reply := do
  let s ← Turn.statement stmt
  Turn.walk do
    RowAct.ofAct (before s)
    if adapted then s.fetchAdapted script.answerRow script.adapter else s.fetch script.callback

def run : StatementCommand → Turn Reply
  | create conn name => do
    let c ← Turn.connection conn
    Reply.ofNewItem name (.statement (← Turn.ofAct (Statement.create c)))
  | createPrepared conn sql name => do
    let c ← Turn.connection conn
    Reply.ofNewItem name (.statement (← Turn.ofAct (c.prepare sql)))
  | connection stmt name => do
    let s ← Turn.statement stmt
    Reply.ofNewItem name (.connection (← Turn.step s.conn.clone))
  | prepare stmt mode sql => perform stmt fun s => s.prepare mode sql
  | execute stmt sql => perform stmt fun s => s.execute sql
  | executePrepared stmt => perform stmt Statement.executePrepared
  | bind stmt index var direction kind size => do
    let (id, _) ← Turn.var var
    perform stmt fun s => s.bind index id direction kind size
  | register stmt name ty maxLength => perform stmt fun s => s.register name ty maxLength
  | setArraySize stmt size => perform stmt fun s => s.setArraySize size
  | allowRebinding stmt allow => perform stmt fun s => s.allowRebinding allow
  | setFetchMode stmt mode => perform stmt fun s => s.setFetchMode mode
  | report stmt => do
    let s ← Turn.statement stmt
    return .statement (reportOf s (← Turn.world))
  | affectedRows stmt => do
    let s ← Turn.statement stmt
    return .datum ⟨.int .uint64, ← Turn.ofAct s.affectedRows⟩
  | tableLength stmt name => do
    let s ← Turn.statement stmt
    return .ofOption .count (← Turn.ofAct (s.tableLength? name))
  | resultset stmt name => take stmt name Statement.resultset
  | nextResultset stmt name => take stmt name Statement.nextResultset
  | releaseResultsets stmt => do
    let s ← Turn.statement stmt
    return .count (← Turn.ofAct s.releaseResultsets)
  | fetch stmt script adapted => walk stmt (fun _ => pure ()) script adapted
  | executeAndFetch stmt sql script adapted => walk stmt (fun s => s.execute sql) script adapted
  | executePreparedAndFetch stmt script adapted => walk stmt Statement.executePrepared script adapted

end StatementCommand

namespace ResultsetCommand

/-- An operation on a resultset. -/
def perform {α : Type} (rs : String) (reply : α → Reply) (f : Resultset → Act α) : Turn Reply := do
  let rs ← Turn.resultset rs
  return reply (← Turn.ofAct (f rs))

def run : ResultsetCommand → Turn Reply
  | next rs => perform rs .flag Resultset.next
  | prev rs => perform rs .flag Resultset.prev
  | first rs => perform rs .flag Resultset.first
  | last rs => perform rs .flag Resultset.last
  | seek rs mode offset => perform rs .flag fun rs => rs.seek mode offset
  | currentRow rs => perform rs .count Resultset.currentRow
  | columnCount rs => perform rs .count Resultset.columnCount
  | isScrollable rs => do return .flag (← Turn.resultset rs).scrollable
  | get rs index r => perform rs .answer fun rs => rs.get index r
  | forEach rs script adapted => do
    let rs ← Turn.resultset rs
    Turn.walk (if adapted then rs.forEachAdapted script.answerRow script.adapter else rs.forEach script.callback)

end ResultsetCommand
end DbClient
