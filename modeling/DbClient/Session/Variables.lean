import DbClient.Session.Reply

/-! Commands for host variables. -/
namespace DbClient

inductive VarCommand where
  /-- Gives a name to a new variable; the variable that had it stays where it is bound. -/
  | new (name : String) (v : HostVar)
  | get (name : String)
  | set (name : String) (v : HostVar)
  /-- Sets a variable and tells what it held. -/
  | replace (name : String) (v : HostVar)
  /-- Appends an element to a vector. -/
  | push (name : String) (d : Datum)
  /-- Takes the last element of a vector. -/
  | pop (name : String)
  | text (name : String)

namespace HostVar

def push : HostVar → Datum → HostVar
  | vector ty xs, ⟨ty', x⟩ => if h : ty' = ty then vector ty (xs ++ [h ▸ x]) else vector ty xs
  | v, _ => v

def pop : HostVar → Option Datum × HostVar
  | vector ty xs => (xs.getLast?.map (Datum.mk ty), vector ty xs.dropLast)
  | v => (none, v)

end HostVar

def VarCommand.run : VarCommand → Turn Reply
  | new name v => do
    modify fun s => { s with
      vars := s.vars.put name s.world.vars.next
      world := { s.world with vars := s.world.vars.add v } }
    pure .nothing
  | get name => do return .contents (← Turn.var name).2
  | set name v => do
    let (id, _) ← Turn.var name
    Turn.update (World.setVar id v)
    pure .nothing
  | replace name v => do
    let (id, old) ← Turn.var name
    Turn.update (World.setVar id v)
    pure (.contents old)
  | push name d => do
    let (id, v) ← Turn.var name
    Turn.update (World.setVar id (v.push d))
    pure .nothing
  | pop name => do
    let (id, v) ← Turn.var name
    let (last, v) := v.pop
    Turn.update (World.setVar id v)
    pure (.ofOption .datum last)
  | text name => do return .text (← Turn.var name).2.text

end DbClient
