import DbClient.Session.Reply

/-! Commands for the native library: scripting it, looking into it, and calling its primitives. -/
namespace DbClient

/-- What the first bytes of recorded cells are as values of a type. -/
def Execution.data (e : Execution) (name : String) (ty : ValueType) : List Datum :=
  ((e.binds.lookup name).getD []).filterMap fun cell => (Host.ofBytes? ty cell).map (Datum.mk ty)

/-- What recorded cells are as texts; what is not UTF-8 is replaced. -/
def Execution.texts (e : Execution) (name : String) : List String :=
  ((e.binds.lookup name).getD []).map Text.Utf8.decodeForgiving

/-- Scripting and inspection. -/
inductive LibraryCommand where
  | setServerVersion (version : String)
  | addResultset (sql : String) (rows : List (List Value))
  | failNext (op : Primitive) (e : NativeError)
  | onExecute (sql : String) (actions : List HookAction)
  | executions
  | lastExecution
  | lastData (name : String) (ty : ValueType)
  | lastTexts (name : String)
  | bound (stmt : HandleRef) (name : String)
  | registered (stmt : HandleRef)
  | prepared (stmt : HandleRef)
  | attr (h : HandleRef) (attr : Attr)
  | isAlive (h : HandleRef)
  | takeError
  | text

namespace LibraryCommand

def script (f : Library → Library) : Turn Reply := do
  Turn.native fun l => ((), f l)
  pure .nothing

def run : LibraryCommand → Turn Reply
  | setServerVersion version => script fun l => l.setServerVersion version
  | addResultset sql rows => script fun l => l.addResultset sql rows
  | failNext op e => script fun l => l.failNext op e
  | onExecute sql actions => script fun l => l.onExecute sql actions
  | executions => do return .executions (← Turn.world).library.executions
  | lastExecution => do return .ofOption .execution (← Turn.world).library.executions.getLast?
  | lastData name ty => do
    return .ofOption (fun e => .data (e.data name ty)) (← Turn.world).library.executions.getLast?
  | lastTexts name => do
    return .ofOption (fun e => .texts (e.texts name)) (← Turn.world).library.executions.getLast?
  | bound stmt name => do
    let h ← stmt.address
    return .ofOption .bound ((← Turn.world).library.bound? h name)
  | registered stmt => do
    let h ← stmt.address
    return .registered ((← Turn.world).library.registered h)
  | prepared stmt => do
    let h ← stmt.address
    return .ofOption (fun p => .prepared p.1 p.2) ((← Turn.world).library.prepared? h)
  | attr h a => do
    let h ← h.address
    return .ofOption .value ((← Turn.world).library.attr? h a)
  | isAlive h => do
    let h ← h.address
    return .flag ((← Turn.world).library.isAlive h)
  | takeError => do return .ofOption .nativeError (← Turn.native Library.takeError)
  | text => do return .text (← Turn.world).library.text

end LibraryCommand

/-- Calls of primitives. -/
inductive PrimitiveCommand where
  | create (kind : HandleKind) (parent : HandleRef)
  | destroy (h : HandleRef) (kind : HandleKind)
  | getAttr (h : HandleRef) (attr : Attr)
  | setAttr (h : HandleRef) (attr : Attr) (v : Value)
  | prepare (stmt : HandleRef) (sql : String) (mode : PrepareMode)
  | register (stmt : HandleRef) (name : String) (ty : ValueType) (maxLength : Nat)
  | dataSize (stmt : HandleRef) (name : String) (pos : Nat)
  | setDataSize (stmt : HandleRef) (name : String) (pos size : Nat)
  | execute (stmt : HandleRef) (iters : Nat)
  | resultset (stmt : HandleRef)
  | nextResultset (stmt : HandleRef)
  | fetch (rs : HandleRef) (op : FetchOp)
  | currentRow (rs : HandleRef)
  | columnCount (rs : HandleRef)
  | columnValue (rs : HandleRef) (index : Nat)
  | breakCall (conn : HandleRef)

namespace PrimitiveCommand

/-- Calls a primitive on a handle. -/
def call {α : Type} (h : HandleRef) (reply : α → Reply) (f : Address → Library → Option α × Library) :
    Turn Reply := do
  Reply.ofPrimitive reply (← Turn.native (f (← h.address)))

/-- The reply of a primitive that has no result but success. -/
def success (_ : Unit) : Reply := .flag true

def run : PrimitiveCommand → Turn Reply
  | create kind parent => call parent .handle fun h => Library.create kind h
  | destroy h kind => call h success fun h => Library.destroy kind h
  | getAttr h attr => call h .value fun h => Library.getAttr h attr
  | setAttr h attr v => call h success fun h => Library.setAttr h attr v
  | prepare stmt sql mode => call stmt success fun h => Library.prepare h sql mode
  | register stmt name ty maxLength => call stmt success fun h => Library.register h name ty maxLength
  | dataSize stmt name pos => call stmt .count fun h => Library.dataSize h name pos
  | setDataSize stmt name pos size => call stmt success fun h => Library.setDataSize h name pos size
  | execute stmt iters => do
    let h ← stmt.address
    Reply.ofPrimitive success (← Turn.step (Statement.runNative h iters))
  | resultset stmt => call stmt .handle Library.resultset
  | nextResultset stmt => call stmt .handle Library.nextResultset
  | fetch rs op => call rs success fun h => Library.fetch h op
  | currentRow rs => call rs .count Library.currentRow
  | columnCount rs => call rs .count Library.columnCount
  | columnValue rs index => call rs .value fun h => Library.columnValue h index
  | breakCall conn => call conn success Library.breakCall

end PrimitiveCommand
end DbClient
