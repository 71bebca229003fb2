import DbClient.Bind.Holder
import DbClient.Native.Library

/-! The state of a program that uses the client: the native library, buffers, host variables, the
environments with their stores and registries, the nodes of the handle forest, and a log of what
happened. Operations run in it; one that fails keeps what it had done before. -/
namespace DbClient

/-- The kinds of extra information that an application keeps with a handle. -/
inductive ExtraType where
  | number | text
  deriving Repr, DecidableEq

/-- Extra information kept with a handle. -/
inductive Extra where
  | number (n : Int)
  | text (s : String)
  | statement (d : StatementData)
  deriving Repr, DecidableEq

def Extra.hasType : Extra → ExtraType → Bool
  | number _, .number => true
  | text _, .text => true
  | _, _ => false

/-- What is done when a handle is released, before its native resource goes. -/
inductive ReleaseAction where
  | nothing
  | unregisterCallbacks
  | freeBinds
  | report (label : String) (take : Option ExtraType)
  deriving Repr, DecidableEq

/-- A node of the handle forest, shared by all wrappers of one native handle. -/
structure Node where
  native : Address
  kind : HandleKind
  /-- The native resource is destroyed with the node. -/
  owned : Bool
  /-- The number of wrappers. -/
  holders : Nat
  released : Bool
  parent : Option Nat
  children : List Nat
  onRelease : ReleaseAction
  extra : Option Extra
  /-- The environment whose store knows the node. -/
  env : Nat
  deriving Repr, DecidableEq

/-- A counted reference to a node, empty once it has been released itself. -/
structure Wrapper where
  node : Option Nat
  deriving Repr, DecidableEq

/-- A failover handler: the replies to events; to others it answers that all is well. -/
structure FailoverHandler where
  replies : List (FailoverEvent × FailoverReply)
  deriving Repr, DecidableEq

def FailoverHandler.reply (h : FailoverHandler) (e : FailoverEvent) : FailoverReply :=
  (h.replies.lookup e).getD default

/-- What can be registered for a native handle. -/
inductive Callback where
  | number (n : Nat)
  | text (s : String)
  | failover (h : FailoverHandler)
  deriving Repr, DecidableEq

/-- What all objects of one environment share. -/
structure EnvState where
  mode : CreateMode
  maxBinds : Nat
  sync : SyncMode
  /-- The number of accesses that met a lock taken in the unguarded mode. -/
  contended : Nat
  store : Assoc Address Nat
  callbacks : Assoc Address Callback
  deriving Repr, DecidableEq

/-- How loud a notice is. -/
inductive Level where
  | warn | debug | trace
  deriving Repr, DecidableEq

namespace Level

def name : Level → String
  | warn => "warn"
  | debug => "debug"
  | trace => "trace"

/-- The louder a notice, the smaller its rank. -/
def rank : Level → Nat
  | warn => 0
  | debug => 1
  | trace => 2

end Level

/-- The notices that operations leave in the log. -/
inductive Notice where
  | acquired (kind : HandleKind) (native : Address) (owned : Bool)
  | detached (kind : HandleKind) (native : Address)
  | destroyed (kind : HandleKind) (native : Address)
  | notDestroyed (kind : HandleKind) (native : Address) (e : NativeError)
  | initialized (native : Address) (mode : CreateMode) (sync : SyncMode)
  | cleanedUp (native : Address)
  | connected (native : Address) (dblink : String)
  | unregistered (native : Address)
  | bindsFreed (native : Address) (count : Nat)
  | allocated (stmt conn : Address)
  | prepared (stmt : Address) (mode : PrepareMode) (sql : String)
  | executed (stmt : Address) (iters : Nat)
  | bound (stmt : Address) (name : String) (ty : ValueType) (direction : Direction)
  | pushedValue (name : String) (ty : ValueType)
  | pulledValue (name : String) (ty : ValueType)
  | pushedBytes (name : String) (count size : Nat)
  | pulledBytes (name : String) (count : Nat)
  | pushedElements (name : String) (count length : Nat)
  | pulledElements (name : String) (count : Nat)
  | accepted (rows : Nat)
  | contention
  deriving Repr, DecidableEq

namespace Notice
open Text (decimal)

def level : Notice → Level
  | notDestroyed .. | contention => .warn
  | destroyed .. | initialized .. | cleanedUp .. | connected .. | allocated .. | prepared ..
  | executed .. => .debug
  | _ => .trace

def text : Notice → String
  | acquired kind h owned =>
    kind.name ++ " " ++ h.text ++ " acquired (allocated: " ++ boolText owned ++ ")"
  | detached kind h => kind.name ++ " " ++ h.text ++ " detached"
  | destroyed kind h => kind.name ++ " " ++ h.text ++ " destroyed"
  | notDestroyed kind h e =>
    "Can't destroy " ++ kind.name ++ " " ++ h.text ++ ": " ++ e.message
  | initialized h mode sync =>
    "Environment " ++ h.text ++ " initialized: " ++ mode.name ++ ", sync " ++ sync.name
  | cleanedUp h => "Environment " ++ h.text ++ " cleaned up"
  | connected h dblink => h.text ++ " connected to " ++ Context.ticked dblink
  | unregistered h => h.text ++ ": callbacks unregistered"
  | bindsFreed h count => h.text ++ ": " ++ decimal count ++ " binds freed"
  | allocated stmt conn => stmt.text ++ " allocated in connection " ++ conn.text
  | prepared stmt mode sql => stmt.text ++ " " ++ mode.name ++ ": " ++ sql
  | executed stmt iters => stmt.text ++ " executed " ++ decimal iters ++ " times"
  | bound stmt name ty direction =>
    stmt.text ++ ": bound " ++ name ++ " as " ++ ty.name ++ " (" ++ direction.name ++ ")"
  | pushedValue name ty => name ++ ": pushed " ++ ty.name
  | pulledValue name ty => name ++ ": pulled " ++ ty.name
  | pushedBytes name count size =>
    name ++ ": pushed " ++ decimal count ++ " of " ++ decimal size ++ " bytes"
  | pulledBytes name count => name ++ ": pulled " ++ decimal count ++ " bytes"
  | pushedElements name count length =>
    name ++ ": pushed " ++ decimal count ++ " of " ++ decimal length ++ " elements"
  | pulledElements name count => name ++ ": pulled " ++ decimal count ++ " elements"
  | accepted rows => decimal rows ++ " rows accepted"
  | contention => "concurrent access to a structure of single-threaded environment, "
      ++ "create environment with CreateMode::Threaded"

end Notice

/-- What the log records. -/
inductive Event where
  | notice (n : Notice)
  | hook (r : HookResult)
  | failover (e : FailoverEvent)
  /-- A release callback ran; it saw the extra information it took, whether the native handle was
  alive, and the length of the store. -/
  | released (label : String) (kind : HandleKind) (native : Address) (taken : Option Extra)
      (alive : Bool) (storeLength : Nat)

/-- What the release of a node does beyond the forest: it runs the release action, and it calls for
the native resource to be destroyed. -/
inductive ReleaseStep where
  | action (node : Nat)
  | destroy (node : Nat)
  deriving Repr, DecidableEq

structure World where
  library : Library
  memory : Memory
  vars : Table HostVar
  envs : Table EnvState
  nodes : Table Node
  log : List Event
  /-- The steps of all releases so far. -/
  releases : List ReleaseStep

namespace World

def fresh : World := ⟨.fresh, ∅, ∅, ∅, ∅, [], []⟩

def record (e : Event) (w : World) : World := { w with log := w.log ++ [e] }

def note (n : Notice) : World → World := record (.notice n)

/-- Adds a step to the releases. -/
def trace (s : ReleaseStep) (w : World) : World := { w with releases := w.releases ++ [s] }

def modifyNode (id : Nat) (f : Node → Node) (w : World) : World := { w with nodes := w.nodes.modify id f }

def modifyEnv (id : Nat) (f : EnvState → EnvState) (w : World) : World :=
  { w with envs := w.envs.modify id f }

/-- Makes a buffer filled with zeros. -/
def allocate (length : Nat) (w : World) : Nat × World :=
  (w.memory.next, { w with memory := w.memory.add (List.replicate length 0) })

/-- The bytes of a buffer; one that does not exist has none. -/
def bufferBytes (w : World) (buffer : Nat) : List UInt8 := (w.memory.get? buffer).getD []

/-- Lays bytes over a buffer from an offset on. -/
def writeBuffer (buffer offset : Nat) (bytes : List UInt8) (w : World) : World :=
  { w with memory := w.memory.modify buffer fun old => overlay old offset bytes }

def setVar (id : Nat) (v : HostVar) (w : World) : World := { w with vars := w.vars.modify id fun _ => v }

/-- Frees buffers. -/
def freeBuffers (buffers : List Nat) (w : World) : World :=
  { w with memory := buffers.foldl Table.erase w.memory }

/-- The node that the store of an environment knows for a native handle. -/
def stored? (w : World) (env : Nat) (native : Address) : Option Nat :=
  (w.envs.get? env).bind fun e => e.store.get? native

def storeLength (w : World) (env : Nat) : Nat := ((w.envs.get? env).map fun e => e.store.size).getD 0

/-! ### Callbacks

The registry of callbacks of an environment: data that an application registers under the native handle by which the
native library will ask for them. The null handle is never a key. -/

def callback? (w : World) (env : Nat) (key : Address) : Option Callback :=
  if key.isNull then none else (w.envs.get? env).bind fun e => e.callbacks.get? key

/-- Removes what is registered under a key; false if nothing was. -/
def removeCallback (env : Nat) (key : Address) (w : World) : Bool × World :=
  match w.callback? env key with
  | none => (false, w)
  | some _ => (true, w.modifyEnv env fun e => { e with callbacks := e.callbacks.erase key })

/-- Registers data under a key in place of what was there; nothing removes it. -/
def setCallback (env : Nat) (key : Address) (c : Option Callback) (w : World) : World :=
  if key.isNull then w
  else match c with
    | some c => w.modifyEnv env fun e => { e with callbacks := e.callbacks.put key c }
    | none => (w.removeCallback env key).2

def callbackCount (w : World) (env : Nat) : Nat :=
  ((w.envs.get? env).map fun e => e.callbacks.size).getD 0

def clearCallbacks (env : Nat) : World → World := modifyEnv env fun e => { e with callbacks := ∅ }

/-- Asks the failover handler that is registered for a connection; without one all is well. -/
def notifyFailover (env : Nat) (conn : Address) (event : FailoverEvent) (w : World) :
    FailoverReply × World :=
  match w.callback? env conn with
  | some (.failover h) => (h.reply event, w.record (.failover event))
  | _ => (default, w)

end World

/-- An operation that cannot fail. -/
abbrev Step (α : Type) : Type := StateM World α

/-- An operation that can fail; what it did before failing stays done. -/
abbrev Act (α : Type) : Type := ExceptT ClientError (StateM World) α

namespace Act

def update (f : World → World) : Act Unit := modify f

def note (n : Notice) : Act Unit := update (World.note n)

/-- Runs a primitive of the native library. -/
def native {α : Type} (f : Library → α × Library) : Act α :=
  modifyGet fun w => let (a, l) := f w.library; (a, { w with library := l })

/-- Fails with the last error of the library, dressed with context, when a primitive gave nothing.
-/
def orFail {α : Type} (dress : ClientError → ClientError) : Option α → Act α
  | some a => pure a
  | none => do throw (dress (.ofNative (← native Library.lastError)))

/-- Runs a primitive that has to succeed. -/
def require {α : Type} (dress : ClientError → ClientError) (f : Library → Option α × Library) : Act α := do
  orFail dress (← native f)

/-- Runs a primitive that may find nothing: without an error nothing was there. -/
def optional {α : Type} (dress : ClientError → ClientError) (f : Library → Option α × Library) :
    Act (Option α) := do
  match ← native f with
  | some a => pure (some a)
  | none =>
    match ← native Library.takeError with
    | some e => throw (dress (.ofNative e))
    | none => pure none

/-- Changes the error of an operation that fails. -/
def dressed {α : Type} (dress : ClientError → ClientError) (a : Act α) : Act α :=
  tryCatch a fun e => throw (dress e)

/-- Sweeps up after an operation that fails. -/
def undoing {α : Type} (sweep : World → World) (a : Act α) : Act α :=
  tryCatch a fun e => do
    update sweep
    throw e

/-- The result of an arithmetic operation; where there is none, the operation stops. -/
def checked {α : Type} : Option α → Act α
  | some a => pure a
  | none => throw .overflow

/-- A result that is known already. -/
def ofExcept {α : Type} : Except ClientError α → Act α
  | .ok a => pure a
  | .error e => throw e

end Act
end DbClient
