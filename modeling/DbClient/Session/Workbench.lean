import DbClient.Session.Natives
import DbClient.Session.Run
import DbClient.Session.Variables

/-! A workbench for bind objects: one native statement and a collection of objects bound to it,
without a statement of the client around them. -/
namespace DbClient

structure Workbench where
  session : Session
  stmt : Address
  holder : BindsHolder
  /-- The size of the array and the number of iterations. -/
  arraySize : Nat

/-- How an object is planned: the variable, and what is to be known of its kind and sizes. -/
structure ObjectSpec where
  var : String
  direction : Direction
  kind : VectorKind
  size : Nat
  arraySize : Nat
  deriving Repr, DecidableEq

inductive BenchCommand where
  | setArraySize (n : Nat)
  /-- Binds an object natively and adds it to the collection. -/
  | add (name : String) (spec : ObjectSpec) (allowRebinding : Bool)
  | clear
  | push
  | pull
  | execute
  | look
  | get (name : String)
  /-- Plans an object without making it. -/
  | plan (spec : ObjectSpec)
  | onExecute (actions : List HookAction)
  | var (c : VarCommand)
  | library (c : LibraryCommand)
  | primitive (c : PrimitiveCommand)
  | misread (message : String)

inductive BenchReply where
  | plain (r : Reply)
  | bindFailed (e : NativeError)
  | executeFailed (e : NativeError)
  /-- The collection, the diagnostic text of its surroundings, and the number of native binds. -/
  | look (holder : BindsHolder) (surroundings : String) (nativeBinds : Nat)
  | object (o : BindObject)
  /-- A plan, with the size of its array at present. -/
  | plan (p : BindPlan) (size : Nat)

/-- The turn of one command on a workbench. -/
abbrev BenchTurn (α : Type) : Type := ExceptT Refusal (StateM Workbench) α

namespace Workbench

/-- The text of the native statement. -/
def sql : String := "insert into t values (:v)"

/-- A workbench with its statement prepared and nothing bound. -/
def fresh : Workbench :=
  let s := Session.fresh
  let (h, l) := Library.create .statement .null s.world.library
  let stmt := h.getD .null
  let (_, l) := Library.prepare stmt sql .prepare l
  ⟨{ s with world := { s.world with library := l } }, stmt, .empty, 1⟩

/-- A turn in the session of the workbench. -/
def inSession {α : Type} (t : Turn α) : BenchTurn α := ExceptT.mk fun b =>
  let (r, s) := t.run b.session
  (r, { b with session := s })

/-- Plans an object of a name. -/
def planOf (name : String) (spec : ObjectSpec) : Turn (BindPlan × HostVar) := do
  let (id, v) ← Turn.var spec.var
  pure (.ofVar name id spec.direction spec.kind spec.size spec.arraySize v, v)

/-- The size of the array of a plan: a table is as long as its vector. -/
def sizeOf (arraySize : Nat) (p : BindPlan) : HostVar → Nat
  | .vector _ xs =>
    match p.form with
    | .vector .table .. => xs.length
    | _ => arraySize
  | .single .. => arraySize

/-- Binds a planned object natively and adds it; one that is refused is freed again. -/
def addObject (plan : BindPlan) (allowRebinding : Bool) : BenchTurn BenchReply := do
  let b ← get
  let o ← inSession (Turn.ofAct (BindObject.make plan))
  match ← inSession (Turn.native (Library.bind b.stmt o.desc)) with
  | none =>
    inSession (Turn.update (World.freeBuffers [o.buffer]))
    return .bindFailed (← inSession (Turn.native Library.lastError))
  | some () =>
    let (old, holder) := b.holder.add o allowRebinding
    modify fun b => { b with holder := holder }
    inSession (Turn.update (World.freeBuffers (old.map BindObject.buffer).toList))
    pure (.plain (.ofOption (fun old => .text old.name) old))

/-- Exchanges the data of all objects. -/
def exchange (f : BindsHolder → Address → Nat → Act Unit) : BenchTurn BenchReply := do
  let b ← get
  inSession (Turn.ofAct (f b.holder b.stmt b.arraySize))
  pure (.plain .nothing)

/-- The diagnostic text of what surrounds an exchange. -/
def surroundings (b : Workbench) : String :=
  "BindCtx \x7b stmt: " ++ b.stmt.text ++ ", array_size: " ++ Text.decimal b.arraySize ++ " \x7d"

def command : BenchCommand → BenchTurn BenchReply
  | .setArraySize n => do
    modify fun b => { b with arraySize := n }
    pure (.plain .nothing)
  | .add name spec allowRebinding => do
    addObject (← inSession (planOf name spec)).1 allowRebinding
  | .clear => do
    let b ← get
    set { b with holder := .empty }
    inSession (Turn.update (World.freeBuffers b.holder.buffers))
    let done ← inSession (Turn.native (Library.prepare b.stmt sql .prepare))
    pure (.plain (.flag done.isSome))
  | .push => exchange BindsHolder.push
  | .pull => exchange BindsHolder.pull
  | .execute => do
    let b ← get
    match ← inSession (Turn.step (Statement.runNative b.stmt b.arraySize)) with
    | none => return .executeFailed (← inSession (Turn.native Library.lastError))
    | some () =>
      return .plain (.ofOption .execution (← inSession Turn.world).library.executions.getLast?)
  | .look => do
    let b ← get
    pure (.look b.holder b.surroundings (b.session.world.library.bindCount b.stmt))
  | .get name => do
    match (← get).holder.get? name with
    | some o => pure (.object o)
    | none => pure (.plain .nothing)
  | .plan spec => do
    let (p, v) ← inSession (planOf "x" spec)
    if p.Fits then return .plan p (sizeOf (← get).arraySize p v) else throw (.failed .overflow none)
  | .onExecute actions => do
    return .plain (← inSession (LibraryCommand.run (.onExecute sql actions)))
  | .var c => do return .plain (← inSession c.run)
  | .library c => do return .plain (← inSession c.run)
  | .primitive c => do return .plain (← inSession c.run)
  | .misread message => throw (.unknownName message)

/-- Takes one turn; the log starts empty. -/
def turn (c : BenchCommand) (b : Workbench) : (Except Refusal BenchReply × List Event) × Workbench :=
  let s := b.session
  let (r, b) := (command c).run { b with session := { s with world := { s.world with log := [] } } }
  ((r, b.session.world.log), b)

/-- Plays commands in order, up to one that stops the program. -/
def play : List BenchCommand → Workbench → List (Except Refusal BenchReply × List Event) × Workbench
  | [], b => ([], b)
  | c :: rest, b =>
    let (o, b) := turn c b
    if Refusal.stopped o.1 then ([o], b)
    else
      let (os, b) := play rest b
      (o :: os, b)

end Workbench
end DbClient
