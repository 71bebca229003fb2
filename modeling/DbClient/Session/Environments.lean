import DbClient.Session.Reply

/-! Commands for environments, their callbacks, and connections. -/
namespace DbClient

inductive EnvironmentCommand where
  | create (params : InitParams) (name : String)
  | cleanup (env : String)
  | report (env : String)
  /-- The diagnostic texts of the shared state, the store and the callbacks. -/
  | texts (env : String)
  | connect (env : String) (params : ConnectParams) (name : String)
  | allocate (env : String) (kind : HandleKind) (parent : Option String) (name : String)
  /-- Wraps a native handle, owned or not. -/
  | wrap (env : String) (h : HandleRef) (kind : HandleKind) (parent : Option String) (owned : Bool)
      (onRelease : ReleaseAction) (name : String)
  | setCallback (env : String) (key : HandleRef) (c : Option Callback)
  | getCallback (env : String) (key : HandleRef) (ty : ExtraType)
  | removeCallback (env : String) (key : HandleRef)
  | clearCallbacks (env : String)
  | notifyFailover (env : String) (conn : HandleRef) (event : FailoverEvent)
  | setFailoverHandler (conn : String) (handler : Option FailoverHandler)
  | serverVersion (conn : String)
  | setTimeouts (conn : String) (t : Timeouts)
  | breakCall (conn : String)

namespace EnvironmentCommand

/-- What is registered, if it has the wanted type. -/
def callbackReply : ExtraType → Callback → Reply
  | .number, .number n => .count n
  | .text, .text s => .text s
  | _, _ => .nothing

def textsOf (e : Environment) (w : World) : List String :=
  match e.state? w with
  | some s => [Environment.stateText w e.env s, Environment.storeText w e.env, Environment.callbacksText s]
  | none => []

def run : EnvironmentCommand → Turn Reply
  | create params name => do
    Reply.ofNewItem name (.environment (← Turn.ofAct (Environment.create params)))
  | cleanup env => do
    let e ← Turn.environment env
    Turn.replace env (.environment (← Turn.step e.cleanup))
    pure .nothing
  | report env => do
    let e ← Turn.environment env
    let w ← Turn.world
    pure (.ofOption (fun s => .environment ⟨s, w.storeLength e.env⟩) (e.state? w))
  | texts env => do
    let e ← Turn.environment env
    return .texts (textsOf e (← Turn.world))
  | connect env params name => do
    let e ← Turn.environment env
    Reply.ofNewItem name (.connection (← Turn.ofAct (e.connect params)))
  | allocate env kind parent name => do
    let e ← Turn.environment env
    let parent ← Turn.optionalWrapper parent
    Reply.ofNewItem name (.handle (← Turn.ofAct (e.allocate kind parent)))
  | wrap env h kind parent owned onRelease name => do
    let e ← Turn.environment env
    let h ← h.address
    let parent ← Turn.optionalWrapper parent
    Reply.ofNewItem name (.handle (← Turn.ofAct (Wrapper.wrap e.env h kind parent owned onRelease)))
  | setCallback env key c => do
    let e ← Turn.environment env
    let key ← key.address
    Turn.update (World.setCallback e.env key c)
    return .count ((← Turn.world).callbackCount e.env)
  | getCallback env key ty => do
    let e ← Turn.environment env
    let key ← key.address
    return .ofOption (callbackReply ty) ((← Turn.world).callback? e.env key)
  | removeCallback env key => do
    let e ← Turn.environment env
    let key ← key.address
    return .flag (← Turn.step (World.removeCallback e.env key))
  | clearCallbacks env => do
    let e ← Turn.environment env
    Turn.update (World.clearCallbacks e.env)
    pure .nothing
  | notifyFailover env conn event => do
    let e ← Turn.environment env
    let conn ← conn.address
    return .text (← Turn.step (World.notifyFailover e.env conn event)).name
  | setFailoverHandler conn handler => do
    let c ← Turn.connection conn
    Turn.ofAct (c.setFailoverHandler handler)
    pure .nothing
  | serverVersion conn => do
    let c ← Turn.connection conn
    return .text (← Turn.ofAct c.serverVersion).text
  | setTimeouts conn t => do
    let c ← Turn.connection conn
    Turn.ofAct (c.setTimeouts t)
    pure .nothing
  | breakCall conn => do
    let c ← Turn.connection conn
    Turn.ofAct c.breakCall
    pure .nothing

end EnvironmentCommand
end DbClient
