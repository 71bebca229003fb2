import DbClient.Bind.Object

/-! The ordered collection of a statement's bind objects, and what else a statement keeps beside its handle. -/
namespace DbClient

structure BindsHolder where
  objects : List BindObject
  deriving Repr, DecidableEq

namespace BindsHolder

def empty : BindsHolder := ⟨[]⟩

/-- Takes the first object of a name out of a list. -/
def takeNamed (name : String) : List BindObject → Option BindObject × List BindObject
  | [] => (none, [])
  | o :: rest =>
    if o.name = name then (some o, rest)
    else
      let (found, rest) := takeNamed name rest
      (found, o :: rest)

/-- Appends an object. When rebinding is allowed, the first object of the same name goes and is
handed back. -/
def add (h : BindsHolder) (o : BindObject) (allowRebinding : Bool) : Option BindObject × BindsHolder :=
  if allowRebinding then
    let (old, rest) := takeNamed o.name h.objects
    (old, ⟨rest ++ [o]⟩)
  else (none, ⟨h.objects ++ [o]⟩)

def get? (h : BindsHolder) (name : String) : Option BindObject := h.objects.find? fun o => o.name = name

def size (h : BindsHolder) : Nat := h.objects.length

def isEmpty (h : BindsHolder) : Bool := h.objects.isEmpty

def names (h : BindsHolder) : List String := h.objects.map fun o => o.name

def buffers (h : BindsHolder) : List Nat := h.objects.map BindObject.buffer

/-- The diagnostic text of the collection. -/
def text (h : BindsHolder) : String := bracketed (h.objects.map fun o => o.text)

end BindsHolder

/-- What a statement keeps beside its handle: its bind objects, its stage and its settings. -/
structure StatementData where
  binds : BindsHolder
  status : Status
  sql : Option String
  allowRebinding : Bool
  /-- The number of iterations of an execution. -/
  arraySize : Nat
  /-- The size at the first bind; while variables are bound the array grows no further. -/
  initialArraySize : Nat
  fetchMode : FetchMode
  deriving Repr, DecidableEq

namespace StatementData

def fresh : StatementData := ⟨.empty, .closed, none, false, 1, 1, .forwardOnly⟩

/-- The state from which a text is prepared: settings stay, everything bound goes. -/
def reset (d : StatementData) (sql : String) : StatementData :=
  { d with binds := .empty, status := .closed, sql := some sql, arraySize := 1, initialArraySize := 1 }

end StatementData

end DbClient
