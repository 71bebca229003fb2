import DbClient.Session.Environments
import DbClient.Session.Handles
import DbClient.Session.Natives
import DbClient.Session.Statements
import DbClient.Session.Variables

/-! Playing commands in a session. Each command has an outcome, and leaves in the log what happened
in its turn. -/
namespace DbClient

inductive Command where
  | environment (c : EnvironmentCommand)
  | handle (c : HandleCommand)
  | var (c : VarCommand)
  | statement (c : StatementCommand)
  | resultset (c : ResultsetCommand)
  | library (c : LibraryCommand)
  | primitive (c : PrimitiveCommand)
  /-- Tells the state of the session as a whole. -/
  | report
  /-- A command that could not be read. -/
  | misread (message : String)

/-- What came of a command, and the events in its turn. -/
structure Outcome where
  result : Except Refusal Reply
  events : List Event

namespace Session

/-- Pairs in the order of their names. -/
def byName {α : Type} (pairs : List (String × α)) : List (String × α) :=
  pairs.mergeSort fun a b => a.1 ≤ b.1

def reportOf (s : Session) : SessionReport :=
  let w := s.world
  { destroyed := w.library.destroyed
    alive := HandleKind.all.map w.library.aliveCount
    executions := w.library.executions.length
    breaks := w.library.breaks
    objects := byName (s.items.pairs.map fun p => (p.1, p.2.wrapper.native w, p.2.wrapper.holders w))
    vars := byName (s.vars.pairs.filterMap fun p => (w.vars.get? p.2).map fun v => (p.1, v)) }

def command : Command → Turn Reply
  | .environment c => c.run
  | .handle c => c.run
  | .var c => c.run
  | .statement c => c.run
  | .resultset c => c.run
  | .library c => c.run
  | .primitive c => c.run
  | .report => do return .session (← get).reportOf
  | .misread message => throw (.unknownName message)

/-- Takes one turn; the log starts empty. -/
def turn (t : Turn Reply) (s : Session) : Outcome × Session :=
  let (r, s) := t.run { s with world := { s.world with log := [] } }
  (⟨r, s.world.log⟩, s)

/-- Plays commands in order, up to one that stops the program. -/
def play : List Command → Session → List Outcome × Session
  | [], s => ([], s)
  | c :: rest, s =>
    let (o, s) := turn (command c) s
    if Refusal.stopped o.result then ([o], s)
    else
      let (os, s) := play rest s
      (o :: os, s)

end Session
end DbClient
