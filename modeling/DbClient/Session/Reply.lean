import DbClient.Session.Basic

/-! Replies: what a session answers to a command. -/
namespace DbClient

/-- What is to be known of an environment. -/
structure EnvironmentReport where
  state : EnvState
  storeLength : Nat

/-- What is to be known of any object with a handle. -/
structure HandleReport where
  address : Address
  kind : HandleKind
  isNull : Bool
  owned : Bool
  holders : Nat
  parent : Address
  children : Nat
  /-- The object is more than a bare handle. -/
  isHolder : Bool

/-- What is to be known of a statement; its data are gone when it is released. -/
structure StatementReport where
  data : Except ClientError StatementData
  nativeBinds : Nat
  nativePrepared : Option (String × PrepareMode)
  connection : Address

/-- What is to be known of a session as a whole. -/
structure SessionReport where
  destroyed : List (HandleKind × Address)
  /-- The number of living handles of each kind. -/
  alive : List Nat
  executions : Nat
  breaks : Nat
  /-- Name, native handle and number of wrappers of each object, by name. -/
  objects : List (String × Address × Nat)
  /-- The host variables by name. -/
  vars : List (String × HostVar)

inductive Reply where
  | nothing
  | flag (b : Bool)
  | count (n : Nat)
  | integer (n : Int)
  | text (s : String)
  | texts (ss : List String)
  /-- The native handle of an object, null once it is released. -/
  | handle (h : Address)
  | datum (d : Datum)
  | contents (v : HostVar)
  | data (ds : List Datum)
  | value (v : Value)
  | answer (a : Answer)
  | nativeError (e : NativeError)
  /-- A primitive succeeded with a result. -/
  | granted (r : Reply)
  /-- A primitive gave nothing, with the error that it left. -/
  | refused (e : Option NativeError)
  | execution (e : Execution)
  | executions (es : List Execution)
  | bound (b : Bound)
  | registered (rs : List (String × ValueType × Nat))
  | prepared (sql : String) (mode : PrepareMode)
  | walked (accepted : Nat) (tally : Tally)
  | environment (r : EnvironmentReport)
  | handleReport (r : HandleReport)
  | statement (r : StatementReport)
  | session (r : SessionReport)

namespace Reply

/-- A reply for what may be absent. -/
def ofOption {α : Type} (f : α → Reply) : Option α → Reply
  | some a => f a
  | none => nothing

/-- The reply to a primitive; the error it leaves is taken only when it gives nothing. -/
def ofPrimitive {α : Type} (f : α → Reply) : Option α → Turn Reply
  | some a => pure (granted (f a))
  | none => do return refused (← Turn.native Library.takeError)

/-- Gives an object a name; the reply is its native handle. -/
def ofNewItem (name : String) (i : Item) : Turn Reply := do
  let h := i.wrapper.native (← Turn.world)
  Turn.assign name i
  pure (handle h)

end Reply
end DbClient
