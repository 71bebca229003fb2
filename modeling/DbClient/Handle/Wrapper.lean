import DbClient.Handle.Release

/-! Wrappers: counted references to native handles. Wrapping a handle that is already wrapped gives
one more reference to the same node; the last reference to go releases the node. -/
namespace DbClient
namespace Wrapper

/-- The node of a wrapper, as long as it is not released. -/
def liveNode? (h : Wrapper) (w : World) : Option (Nat × Node) :=
  h.node.bind fun id =>
    match w.nodes.get? id with
    | some n => if n.released then none else some (id, n)
    | none => none

def anyNode? (h : Wrapper) (w : World) : Option Node := h.node.bind w.nodes.get?

/-- The native handle, null once it is released. -/
def native (h : Wrapper) (w : World) : Address := ((h.liveNode? w).map fun p => p.2.native).getD .null

def isNull (h : Wrapper) (w : World) : Bool := (h.liveNode? w).isNone

/-- The kind of the handle; a wrapper that has lost its node counts as an environment. -/
def kind (h : Wrapper) (w : World) : HandleKind := ((h.anyNode? w).map Node.kind).getD .environment

def isOwned (h : Wrapper) (w : World) : Bool := ((h.anyNode? w).map Node.owned).getD false

def holders (h : Wrapper) (w : World) : Nat := ((h.liveNode? w).map fun p => p.2.holders).getD 0

def parentNative (h : Wrapper) (w : World) : Address :=
  (((h.liveNode? w).bind fun p => p.2.parent).bind w.nodes.get?).elim .null Node.native

def childrenCount (h : Wrapper) (w : World) : Nat :=
  ((h.liveNode? w).map fun p => p.2.children.length).getD 0

/-- The diagnostic text of a wrapper. -/
def text (h : Wrapper) (w : World) : String :=
  match h.anyNode? w with
  | none => "SmartHandle(released)"
  | some n =>
    "SmartHandle(Node \x7b native: " ++ n.native.text ++ ", kind: " ++ n.kind.name ++ ", allocated: "
      ++ boolText n.owned ++ ", holders: " ++ Text.decimal n.holders ++ ", released: "
      ++ boolText n.released ++ " \x7d)"

/-- The native handle of a wrapper that is not released. -/
def live (h : Wrapper) : Act Address := do
  let w ← get
  if h.isNull w then throw (.nullHandle (h.kind w)) else pure (h.native w)

/-- One more wrapper of a node. -/
def acquire (id : Nat) (w : World) : Wrapper × World :=
  (⟨some id⟩, w.modifyNode id fun n => { n with holders := n.holders + 1 })

/-- Adds a node with its first wrapper, as the last child of its parent. -/
def addNode (node : Node) (w : World) : Wrapper × World :=
  let id := w.nodes.next
  let w := { w with nodes := w.nodes.add node }
  let w := match node.parent with
    | some parent => w.modifyNode parent fun n => { n with children := n.children ++ [id] }
    | none => w
  let w := w.modifyEnv node.env fun e => { e with store := e.store.put node.native id }
  (⟨some id⟩, w.note (.acquired node.kind node.native node.owned))

/-- Wraps a native handle. A handle that is wrapped already keeps its node with all that belongs to
it; ownership cannot come to a node made without it. -/
def wrap (env : Nat) (native : Address) (kind : HandleKind) (parent : Option Wrapper) (owned : Bool)
    (onRelease : ReleaseAction) : Act Wrapper := do
  if native.isNull then throw (.nullHandle kind)
  let w ← get
  match (w.stored? env native).bind fun id => (Wrapper.mk (some id)).liveNode? w with
  | some (id, node) =>
    if owned && !node.owned then throw (.invalidState "acquire" .alreadyTransient)
    modifyGet (acquire id)
  | none =>
    let parent ← match parent with
      | none => pure none
      | some p => match p.liveNode? w with
        | some (id, _) => pure (some id)
        | none => throw (.nullHandle (p.kind w))
    modifyGet (addNode
      { native := native, kind := kind, owned := owned, holders := 1, released := false, parent := parent,
        children := [], onRelease := onRelease, extra := none, env := env })

/-- Wraps a handle that was made a moment ago under a parent; if that fails, the handle is
destroyed. -/
def adopt (env : Nat) (native : Address) (kind : HandleKind) (parent : Wrapper)
    (onRelease : ReleaseAction) : Act Wrapper :=
  tryCatch (wrap env native kind (some parent) true onRelease) fun e => do
    let _ ← Act.native (Library.destroy kind native)
    throw e

/-- One wrapper of a node less; the last one releases it. -/
def drop (h : Wrapper) (w : World) : World :=
  match h.node with
  | none => w
  | some id =>
    let last := (w.nodes.get? id).any fun n => n.holders = 1
    let w := w.modifyNode id fun n => { n with holders := n.holders - 1 }
    if last then (w.release id).2 else w

/-- A copy of a wrapper; a copy of a released one is empty. -/
def clone (h : Wrapper) (w : World) : Wrapper × World :=
  match h.liveNode? w with
  | some (id, _) => acquire id w
  | none => (⟨none⟩, w)

/-- Attaches extra information, in place of what was there. -/
def setExtra (h : Wrapper) (e : Extra) : Act Unit := do
  let w ← get
  match h.liveNode? w with
  | none => throw (.nullHandle (h.kind w))
  | some (id, node) =>
    let freed := match node.extra with
      | some (.statement d) => d.binds.buffers
      | _ => []
    Act.update fun w => (w.modifyNode id fun n => { n with extra := some e }).freeBuffers freed

def extra? (h : Wrapper) (w : World) : Option Extra := (h.liveNode? w).bind fun p => p.2.extra

/-- Takes extra information of a type. -/
def takeExtra (h : Wrapper) (ty : ExtraType) (w : World) : Option Extra × World :=
  match h.liveNode? w with
  | some (id, _) => w.takeExtra id ty
  | none => (none, w)

/-- A wrapper for the first child that satisfies a condition. -/
def findChild (h : Wrapper) (p : Node → Bool) (w : World) : Option Wrapper × World :=
  match h.liveNode? w with
  | none => (none, w)
  | some (_, node) =>
    match node.children.find? fun c => (w.nodes.get? c).any p with
    | some c => let (child, w) := acquire c w; (some child, w)
    | none => (none, w)

/-- Releases nodes one after the other and counts those that were not released before. -/
def releaseEach : List Nat → World → Nat × World
  | [], w => (0, w)
  | id :: rest, w =>
    let (b, w) := w.release id
    let (n, w) := releaseEach rest w
    ((if b then 1 else 0) + n, w)

/-- Releases the children that satisfy a condition, however many wrappers they have. -/
def releaseChildren (h : Wrapper) (p : Node → Bool) (w : World) : Nat × World :=
  match h.liveNode? w with
  | none => (0, w)
  | some (_, node) => releaseEach (node.children.filter fun c => (w.nodes.get? c).any p) w

end Wrapper
end DbClient
