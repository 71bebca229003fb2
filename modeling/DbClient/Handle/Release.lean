import DbClient.World

/-! Release of nodes. A node that is released takes everything below it along: its children go
first, in the order in which they were acquired, then the node leaves its parent and its store, its
release action runs, and its native resource is destroyed or let go. -/
namespace DbClient
namespace Node

/-- The extra information that a report takes. -/
def taken (take : Option ExtraType) (n : Node) : Option Extra :=
  take.bind fun ty => n.extra.filter fun e => e.hasType ty

/-- The node after its release action: the action is gone, and the extra information it took. -/
def spent (n : Node) : Node :=
  { n with
    onRelease := .nothing
    extra := match n.onRelease, n.extra with
      | .freeBinds, some (.statement _) => none
      | .report _ take, e => if (n.taken take).isSome then none else e
      | _, e => e }

end Node

namespace World

/-- Takes the extra information of a node when it has the wanted type. -/
def takeExtra (id : Nat) (ty : ExtraType) (w : World) : Option Extra × World :=
  match ((w.nodes.get? id).bind Node.extra) with
  | some e =>
    if e.hasType ty then (some e, w.modifyNode id fun n => { n with extra := none }) else (none, w)
  | none => (none, w)

/-- Performs the release action of a node around it. -/
def performAction (node : Node) (w : World) : World :=
  match node.onRelease with
  | .nothing => w
  | .unregisterCallbacks =>
    let known := ((w.envs.get? node.env).map fun e => e.callbacks.contains node.native).getD false
    if known then
      (w.modifyEnv node.env fun e => { e with callbacks := e.callbacks.erase node.native }).note
        (.unregistered node.native)
    else w
  | .freeBinds =>
    match node.extra with
    | some (.statement d) =>
      (w.note (.bindsFreed node.native d.binds.size)).freeBuffers d.binds.buffers
    | _ => w
  | .report label take =>
    w.record (.released label node.kind node.native (node.taken take) (w.library.isAlive node.native)
      (w.storeLength node.env))

/-- Runs the release action of a node, which is done with after that. -/
def runReleaseAction (id : Nat) (w : World) : World :=
  match w.nodes.get? id with
  | none => w
  | some node =>
    let w := if node.onRelease = .nothing then w else w.trace (.action id)
    (performAction node w).modifyNode id Node.spent

/-- Cuts a node out of its parent's list of children. -/
def leaveParent (id : Nat) (w : World) : World :=
  match (w.nodes.get? id).bind Node.parent with
  | none => w
  | some parent =>
    (w.modifyNode id fun n => { n with parent := none }).modifyNode parent fun n =>
      { n with children := n.children.filter (· ≠ id) }

/-- Removes a node from the store that knows it. -/
def leaveStore (id : Nat) (w : World) : World :=
  match w.nodes.get? id with
  | none => w
  | some node =>
    if w.stored? node.env node.native = some id then
      w.modifyEnv node.env fun e => { e with store := e.store.erase node.native }
    else w

/-- Destroys the native resource of a node that owns it. -/
def leaveNative (id : Nat) (w : World) : World :=
  match w.nodes.get? id with
  | none => w
  | some node =>
    if node.owned then
      let w := w.trace (.destroy id)
      match Library.destroy node.kind node.native w.library with
      | (some (), l) => { w with library := l }.note (.destroyed node.kind node.native)
      | (none, l) =>
        let (e, l) := l.lastError
        { w with library := l }.note (.notDestroyed node.kind node.native e)
    else w.note (.detached node.kind node.native)

/-- Marks a node as released and takes its children away from it. -/
def markReleased (id : Nat) : World → World :=
  modifyNode id fun n => { n with released := true, children := [] }

/-- Releases a node with everything below it; false if it was released before. Each level of the
recursion marks one more node, so the number of nodes bounds its depth. -/
def releaseWithin : Nat → Nat → World → Bool × World
  | 0, _, w => (false, w)
  | fuel + 1, id, w =>
    match w.nodes.get? id with
    | none => (false, w)
    | some node =>
      if node.released then (false, w)
      else
        let w := node.children.foldl
          (fun w child =>
            (releaseWithin fuel child (w.modifyNode child fun n => { n with parent := none })).2)
          (w.markReleased id)
        (true, leaveNative id (runReleaseAction id (leaveStore id (leaveParent id w))))

def release (id : Nat) (w : World) : Bool × World := releaseWithin (w.nodes.rows.size + 1) id w

end World
end DbClient
