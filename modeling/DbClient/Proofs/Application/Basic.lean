import DbClient.Proofs.Moves.Opening
import DbClient.Session.Basic
import Mathlib.Algebra.BigOperators.Group.Multiset.Basic

/-! Applications: programs that use the client. An application holds objects, calls their operations one
after the other, and gives objects up. Its runs are all the ways in which it can do so. -/
namespace DbClient

namespace Item

/-- The wrappers of which an object is made. -/
def wrappers : Item → List Wrapper
  | environment e => [e.root]
  | connection c => [c.handle]
  | statement s => [s.conn.handle, s.handle]
  | resultset r => [r.handle]
  | handle h => [h]

/-- The objects that can be used through an object: a statement lends its connection. -/
def parts : Item → List Item
  | statement s => [statement s, connection s.conn]
  | i => [i]

/-- What holds of an object holds of its parts, if it goes over from a statement to its connection. -/
lemma of_mem_parts {P : Item → Prop} (hP : ∀ s, P (statement s) → P (connection s.conn)) {i j : Item} (hi : P i)
    (hj : j ∈ i.parts) : P j := by
  cases i with
  | statement s =>
    rcases List.mem_cons.mp hj with rfl | hj
    · exact hi
    · obtain rfl := List.mem_singleton.mp hj
      exact hP s hi
  | _ =>
    obtain rfl := List.mem_singleton.mp hj
    exact hi

end Item

/-- An application: the world it works in, and the objects that it holds. -/
structure Application where
  world : World
  items : Multiset Item

/-! ### Operations -/

/-- What can be asked of an environment. -/
inductive EnvironmentCall where
  | cleanup
  | connect (params : ConnectParams)
  | allocate (kind : HandleKind) (parent : Option Item)

/-- What can be done with the callbacks of an environment. -/
inductive RegistryCall where
  | set (key : Address) (c : Option Callback)
  | remove (key : Address)
  | clear
  | notifyFailover (conn : Address) (event : FailoverEvent)

/-- What can be asked of a connection. -/
inductive ConnectionCall where
  | statement
  | prepare (sql : String)
  | serverVersion
  | setTimeouts (t : Timeouts)
  | breakCall
  | setFailoverHandler (handler : Option FailoverHandler)

/-- What can be asked of a statement, walks over its rows apart. -/
inductive StatementCall where
  | connection
  | prepare (mode : PrepareMode) (sql : String)
  | execute (sql : String)
  | executePrepared
  | bind (index : BindIndex) (var : Nat) (direction : Direction) (kind : VectorKind) (size : Nat)
  | register (name : String) (ty : ValueType) (maxLength : Nat)
  | setArraySize (size : Nat)
  | allowRebinding (allow : Bool)
  | setFetchMode (mode : FetchMode)
  | affectedRows
  | resultset
  | nextResultset
  | releaseResultsets

/-- What can be asked of a resultset, walks over its rows apart. -/
inductive ResultsetCall where
  | next
  | prev
  | first
  | last
  | seek (mode : SeekMode) (offset : Int)
  | currentRow
  | columnCount
  | get (index : Nat) (r : Request)

/-- What can be done with an object of any kind. -/
inductive ItemCall where
  | clone
  | drop
  | setExtra (e : Extra)
  | takeExtra (ty : ExtraType)
  | findChild (p : Node → Bool)
  | releaseChildren (p : Node → Bool)

/-- What can be done with the native library: it is scripted, or used in any other way. -/
inductive LibraryCall where
  | setServerVersion (version : String)
  | addResultset (sql : String) (rows : List (List Value))
  | onExecute (sql : String) (actions : List HookAction)
  | failNext (op : Primitive) (e : NativeError)
  | takeError
  | foreign (f : Library → Library)

/-- One operation of an application. -/
inductive Operation where
  | createEnvironment (params : InitParams)
  | environment (e : Environment) (c : EnvironmentCall)
  | registry (env : Nat) (c : RegistryCall)
  /-- Wraps a native handle that the application has from elsewhere. -/
  | wrap (env : Nat) (native : Address) (kind : HandleKind) (parent : Option Item) (owned : Bool)
      (onRelease : ReleaseAction)
  | connection (c : Connection) (k : ConnectionCall)
  | statement (s : Statement) (k : StatementCall)
  | resultset (rs : Resultset) (k : ResultsetCall)
  | item (i : Item) (k : ItemCall)
  /-- Releases a bare handle, of which an empty wrapper remains. -/
  | release (h : Wrapper)
  | newVar (v : HostVar)
  | setVar (id : Nat) (v : HostVar)
  | library (k : LibraryCall)
  | note (n : Notice)

/-! ### What operations do -/

/-- Performs a call, which gives objects to the application. -/
def EnvironmentCall.perform (e : Environment) : EnvironmentCall → Act (Multiset Item)
  | cleanup => do
    let e ← modifyGet e.cleanup
    pure {.environment e}
  | connect params => do
    let c ← e.connect params
    pure {.connection c}
  | allocate kind parent => do
    let h ← e.allocate kind (parent.map Item.wrapper)
    pure {.handle h}

def RegistryCall.perform (env : Nat) : RegistryCall → World → World
  | set key c, w => w.setCallback env key c
  | remove key, w => (w.removeCallback env key).2
  | clear, w => w.clearCallbacks env
  | notifyFailover conn event, w => (w.notifyFailover env conn event).2

def ConnectionCall.perform (c : Connection) : ConnectionCall → Act (Multiset Item)
  | statement => do
    let s ← Statement.create c
    pure {.statement s}
  | prepare sql => do
    let s ← c.prepare sql
    pure {.statement s}
  | serverVersion => do
    let _ ← c.serverVersion
    pure 0
  | setTimeouts t => do
    c.setTimeouts t
    pure 0
  | breakCall => do
    c.breakCall
    pure 0
  | setFailoverHandler handler => do
    c.setFailoverHandler handler
    pure 0

/-- The object that holds a resultset, if there is one. -/
def resultsetItems (rs : Option Resultset) : Multiset Item := rs.elim 0 fun rs => {.resultset rs}

def StatementCall.perform (s : Statement) : StatementCall → Act (Multiset Item)
  | connection => do
    let c ← modifyGet s.conn.clone
    pure {.connection c}
  | prepare mode sql => do
    s.prepare mode sql
    pure 0
  | execute sql => do
    s.execute sql
    pure 0
  | executePrepared => do
    s.executePrepared
    pure 0
  | bind index var direction kind size => do
    s.bind index var direction kind size
    pure 0
  | register name ty maxLength => do
    s.register name ty maxLength
    pure 0
  | setArraySize size => do
    s.setArraySize size
    pure 0
  | allowRebinding allow => do
    s.allowRebinding allow
    pure 0
  | setFetchMode mode => do
    s.setFetchMode mode
    pure 0
  | affectedRows => do
    let _ ← s.affectedRows
    pure 0
  | resultset => do
    let rs ← s.resultset
    pure (resultsetItems rs)
  | nextResultset => do
    let rs ← s.nextResultset
    pure (resultsetItems rs)
  | releaseResultsets => do
    let _ ← s.releaseResultsets
    pure 0

def ResultsetCall.perform (rs : Resultset) : ResultsetCall → Act (Multiset Item)
  | next => do
    let _ ← rs.next
    pure 0
  | prev => do
    let _ ← rs.prev
    pure 0
  | first => do
    let _ ← rs.first
    pure 0
  | last => do
    let _ ← rs.last
    pure 0
  | seek mode offset => do
    let _ ← rs.seek mode offset
    pure 0
  | currentRow => do
    let _ ← rs.currentRow
    pure 0
  | columnCount => do
    let _ ← rs.columnCount
    pure 0
  | get index r => do
    let _ ← rs.get index r
    pure 0

def ItemCall.perform (i : Item) : ItemCall → Act (Multiset Item)
  | clone => do
    let j ← modifyGet i.clone
    pure {j}
  | drop => do
    Act.update i.drop
    pure 0
  | setExtra e => do
    i.wrapper.setExtra e
    pure 0
  | takeExtra ty => do
    let _ ← modifyGet (i.wrapper.takeExtra ty)
    pure 0
  | findChild p => do
    let h ← modifyGet (i.wrapper.findChild p)
    pure (h.elim 0 fun h => {.handle h})
  | releaseChildren p => do
    let _ ← modifyGet (i.wrapper.releaseChildren p)
    pure 0

def LibraryCall.perform : LibraryCall → Library → Library
  | setServerVersion version, l => l.setServerVersion version
  | addResultset sql rows, l => l.addResultset sql rows
  | onExecute sql actions, l => l.onExecute sql actions
  | failNext op e, l => l.failNext op e
  | takeError, l => l.takeError.2
  | foreign f, l => f l

/-- Performs an operation, which gives objects to the application. An environment that there never was
cannot be used. -/
def Operation.perform : Operation → Act (Multiset Item)
  | createEnvironment params => do
    let e ← Environment.create params
    pure {.environment e}
  | environment e c => c.perform e
  | registry env c => do
    Act.update (c.perform env)
    pure 0
  | wrap env native kind parent owned onRelease => do
    match (← get).envs.get? env with
    | none => pure 0
    | some _ =>
      let h ← Wrapper.wrap env native kind (parent.map Item.wrapper) owned onRelease
      pure {.handle h}
  | connection c k => k.perform c
  | statement s k => k.perform s
  | resultset rs k => k.perform rs
  | item i k => k.perform i
  | release h => do
    Act.update h.drop
    pure {.handle ⟨none⟩}
  | newVar v => do
    Act.update fun w => { w with vars := w.vars.add v }
    pure 0
  | setVar id v => do
    Act.update (World.setVar id v)
    pure 0
  | library k => do
    Act.update fun w => { w with library := k.perform w.library }
    pure 0
  | note n => do
    Act.note n
    pure 0

namespace Operation

/-- The objects that an operation uses. -/
def uses : Operation → List Item
  | environment e (.allocate _ (some parent)) => [.environment e, parent]
  | environment e _ => [.environment e]
  | wrap _ _ _ (some parent) _ _ => [parent]
  | connection c _ => [.connection c]
  | statement s _ => [.statement s]
  | resultset rs _ => [.resultset rs]
  | item i _ => [i]
  | release h => [.handle h]
  | _ => []

/-- The objects that an operation takes from the application. -/
def spends : Operation → Multiset Item
  | environment e .cleanup => {.environment e}
  | item i .drop => {i}
  | release h => {.handle h}
  | _ => 0

/-- What is up to the terms: the application wraps handles and uses the native library on its own only on
foreign terms, and makes destruction fail only where there may be faults. The data of a statement are not
for the application to make. -/
def Permitted (t : Terms) : Operation → Prop
  | wrap .. => t.foreign = true
  | library (.foreign _) => t.foreign = true
  | library (.failNext op _) => op = .destroy → t.faults = true
  | item _ (.setExtra e) => ∀ d, e ≠ .statement d
  | _ => True

/-- The application after an operation. -/
def after (op : Operation) (a : Application) : Application :=
  let (r, w) := op.perform.run a.world
  ⟨w, (r.toOption.getD 0) + (a.items - op.spends)⟩

end Operation

namespace Application

/-- An object is at hand: it is held, or lent by one that is. -/
def Holds (a : Application) (i : Item) : Prop := ∃ j ∈ a.items, i ∈ j.parts

instance (a : Application) (i : Item) : Decidable (a.Holds i) := Multiset.decidableExistsMultiset

/-- The objects of an operation are at hand. -/
def Ready (a : Application) (op : Operation) : Prop := (∀ i ∈ op.uses, a.Holds i) ∧ op.spends ≤ a.items

instance (a : Application) (op : Operation) : Decidable (a.Ready op) :=
  inferInstanceAs (Decidable ((∀ i ∈ op.uses, a.Holds i) ∧ op.spends ≤ a.items))

/-- One operation of an application, with objects that are at hand. -/
def Step (t : Terms) (a b : Application) : Prop :=
  ∃ op : Operation, op.Permitted t ∧ a.Ready op ∧ b = op.after a

/-- A run: any operations in any order. -/
def Runs (t : Terms) : Application → Application → Prop := Relation.ReflTransGen (Step t)

/-- The application before its first operation. -/
def start : Application := ⟨.fresh, 0⟩

/-- An application that a run can lead to. -/
def Reachable (t : Terms) (a : Application) : Prop := Runs t start a

/-- The number of wrappers of a node among all that the application holds. -/
def wrappersOf (a : Application) (id : Nat) : Nat :=
  (a.items.map fun i => i.wrappers.countP fun h => h.node = some id).sum

/-! ### Programs without decisions -/

/-- The application after a list of operations. -/
def play : List Operation → Application → Application
  | [], a => a
  | op :: rest, a => play rest (op.after a)

/-- Each operation of a list can be performed when its turn comes. -/
def Legal (t : Terms) : List Operation → Application → Prop
  | [], _ => True
  | op :: rest, a => op.Permitted t ∧ a.Ready op ∧ Legal t rest (op.after a)

/-- Each operation of a list has a property in the world that it finds when its turn comes. -/
def Throughout (P : Operation → World → Prop) : List Operation → Application → Prop
  | [], _ => True
  | op :: rest, a => P op a.world ∧ Throughout P rest (op.after a)

theorem runs_play {t : Terms} {ops : List Operation} {a : Application} (h : Legal t ops a) :
    Runs t a (play ops a) := by
  induction ops generalizing a with
  | nil => exact Relation.ReflTransGen.refl
  | cons op rest ih =>
    obtain ⟨hp, hr, hrest⟩ := h
    exact Relation.ReflTransGen.head ⟨op, hp, hr, rfl⟩ (ih hrest)

end Application
end DbClient
