import DbClient.Connection

/-! Environments: the roots of the handle forest. Cleaning one up releases everything below its
root. -/
namespace DbClient

structure Environment where
  env : Nat
  root : Wrapper
  deriving Repr, DecidableEq

namespace Environment

/-- The shared state of a new environment; it is guarded in the threaded mode. -/
def initialState (params : InitParams) : EnvState :=
  ⟨params.mode, params.maxBinds, if params.mode.isThreaded then .safe else .unguarded, 0, ∅, ∅⟩

/-- Creates an environment with its root. -/
def create (params : InitParams) : Act Environment := do
  let env := (← get).envs.next
  let state := initialState params
  Act.update fun w => { w with envs := w.envs.add state }
  let native ← Act.require id (Library.create .environment .null)
  let root ← Wrapper.wrap env native .environment none true .nothing
  Act.note (.initialized native params.mode state.sync)
  pure ⟨env, root⟩

/-- Gives the root back, forgets all callbacks and leaves the guarded mode. Done once, it has no
further effect. -/
def cleanup (e : Environment) (w : World) : Environment × World :=
  if e.root.isNull w then (e, w)
  else
    let native := e.root.native w
    let w := ((e.root.drop w).clearCallbacks e.env).modifyEnv e.env fun s => { s with sync := .unguarded }
    ({ e with root := ⟨none⟩ }, w.note (.cleanedUp native))

def drop (e : Environment) (w : World) : World :=
  let (e, w) := e.cleanup w
  e.root.drop w

def connect (e : Environment) (params : ConnectParams) : Act Connection :=
  Connection.connect e.env e.root params

/-- Creates a native handle and wraps it under a parent, or under the root. -/
def allocate (e : Environment) (kind : HandleKind) (parent : Option Wrapper) : Act Wrapper := do
  let parent := parent.getD e.root
  let native ← Act.require id (Library.create kind (← parent.live))
  Wrapper.wrap e.env native kind (some parent) true .nothing

/-- The state shared by the objects of an environment. -/
def state? (e : Environment) (w : World) : Option EnvState := w.envs.get? e.env

def storeText (w : World) (env : Nat) : String :=
  "HandleStore \x7b len: " ++ Text.decimal (w.storeLength env) ++ " \x7d"

/-- The diagnostic text of the state of an environment. -/
def stateText (w : World) (env : Nat) (s : EnvState) : String :=
  "Env \x7b mode: " ++ s.mode.name ++ ", sync: " ++ s.sync.name ++ ", handles: " ++ storeText w env ++ " \x7d"

/-- The diagnostic text of the callbacks of an environment. -/
def callbacksText (s : EnvState) : String :=
  "CallbackRegistry \x7b mode: " ++ s.sync.name ++ ", len: " ++ Text.decimal s.callbacks.size ++ " \x7d"

/-- The diagnostic text of an environment. -/
def text (e : Environment) (w : World) : String :=
  "Environment \x7b root: " ++ e.root.text w ++ ", env: "
    ++ ((e.state? w).elim "" (stateText w e.env)) ++ " \x7d"

end Environment
end DbClient
