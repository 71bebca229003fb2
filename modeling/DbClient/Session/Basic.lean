import DbClient.Environment
import DbClient.Statement

/-! Sessions: a world whose objects and host variables have names, so that a list of commands can be
played in it. A command that fails keeps what it had done before. -/
namespace DbClient

/-- An object that a session knows by name. -/
inductive Item where
  | environment (e : Environment)
  | connection (c : Connection)
  | statement (s : Statement)
  | resultset (r : Resultset)
  | handle (h : Wrapper)
  deriving Repr, DecidableEq

namespace Item

def wrapper : Item → Wrapper
  | environment e => e.root
  | connection c => c.handle
  | statement s => s.handle
  | resultset r => r.handle
  | handle h => h

def drop : Item → World → World
  | environment e => e.drop
  | connection c => c.drop
  | statement s => s.drop
  | resultset r => r.drop
  | handle h => h.drop

/-- The diagnostic text of an object. -/
def text : Item → World → String
  | environment e => e.text
  | connection c => c.text
  | statement s => s.text
  | resultset r => r.text
  | handle h => h.text

/-- The object is more than a bare handle. -/
def isHolder : Item → Bool
  | handle _ => false
  | _ => true

/-- A copy of an object: of a connection a connection, of anything else a bare handle. -/
def clone : Item → World → Item × World
  | connection c, w => let (c, w) := c.clone w; (connection c, w)
  | item, w => let (h, w) := item.wrapper.clone w; (handle h, w)

end Item

/-- What a callback was given for a row: the cells, or the error that stands in their place. -/
inductive RowRecord where
  | cells (cs : List (Except ClientError Answer))
  | failed (e : ClientError)

/-- What a callback saw in the course of a walk. -/
structure Tally where
  calls : Nat
  rows : List RowRecord

def Tally.empty : Tally := ⟨0, []⟩

/-- Why a command has no reply. -/
inductive Refusal where
  /-- An operation failed; a walk over rows tells what it had seen. -/
  | failed (e : ClientError) (tally : Option Tally)
  /-- What the command names stands for nothing, or for nothing of the kind that it needs. -/
  | unknownName (name : String)

/-- What is wrong with a command for a variable that there is not. -/
def noVariable (name : String) : String := "no var: " ++ Text.quoted name

/-- The command has stopped the program. -/
def Refusal.stopped {α : Type} : Except Refusal α → Bool
  | .error (.failed .overflow _) => true
  | _ => false

structure Session where
  world : World
  items : Assoc String Item
  vars : Assoc String Nat

def Session.fresh : Session := ⟨.fresh, ∅, ∅⟩

/-- The turn of one command in a session. -/
abbrev Turn (α : Type) : Type := ExceptT Refusal (StateM Session) α

namespace Turn
variable {α : Type}

def ofAct (a : Act α) : Turn α := ExceptT.mk fun s =>
  let (r, w) := a.run s.world
  (r.mapError fun e => .failed e none, { s with world := w })

/-- A step that cannot fail. -/
def step (f : World → α × World) : Turn α := modifyGet fun s =>
  let (a, w) := f s.world
  (a, { s with world := w })

def update (f : World → World) : Turn Unit := step fun w => ((), f w)

def native (f : Library → α × Library) : Turn α := step fun w =>
  let (a, l) := f w.library
  (a, { w with library := l })

def world : Turn World := do return (← get).world

/-! ### Names -/

def item (name : String) : Turn Item := do
  match (← get).items.get? name with
  | some i => pure i
  | none => throw (.unknownName name)

def environment (name : String) : Turn Environment := do
  match ← item name with
  | .environment e => pure e
  | _ => throw (.unknownName name)

def connection (name : String) : Turn Connection := do
  match ← item name with
  | .connection c => pure c
  | _ => throw (.unknownName name)

def statement (name : String) : Turn Statement := do
  match ← item name with
  | .statement s => pure s
  | _ => throw (.unknownName name)

def resultset (name : String) : Turn Resultset := do
  match ← item name with
  | .resultset r => pure r
  | _ => throw (.unknownName name)

def wrapper (name : String) : Turn Wrapper := do return (← item name).wrapper

def optionalWrapper : Option String → Turn (Option Wrapper)
  | some name => do return some (← wrapper name)
  | none => pure none

def var (name : String) : Turn (Nat × HostVar) := do
  let s ← get
  match s.vars.get? name with
  | none => throw (.unknownName (noVariable name))
  | some id =>
    match s.world.vars.get? id with
    | some v => pure (id, v)
    | none => throw (.unknownName (noVariable name))

/-- Gives an object a name. The object that had the name is dropped after that. -/
def assign (name : String) (i : Item) : Turn Unit := modify fun s =>
  let w := match s.items.get? name with
    | some old => old.drop s.world
    | none => s.world
  { s with items := s.items.put name i, world := w }

/-- Takes a name away together with its object. -/
def forget (name : String) : Turn Unit := do
  let i ← item name
  modify fun s => { s with items := s.items.erase name, world := i.drop s.world }

/-- Changes an object and keeps its name. -/
def replace (name : String) (i : Item) : Turn Unit := modify fun s =>
  { s with items := s.items.put name i }

end Turn

/-- A native handle as a command gives it: by its number, or as the present one of an object. -/
inductive HandleRef where
  | number (n : Nat)
  | of (name : String)
  | null
  deriving Repr, DecidableEq

def HandleRef.address : HandleRef → Turn Address
  | number n => pure ⟨n⟩
  | of name => do return (← Turn.wrapper name).native (← Turn.world)
  | null => pure .null

end DbClient
