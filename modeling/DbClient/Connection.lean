import DbClient.Handle.Wrapper
import DbClient.Params
import DbClient.Value.Convert

/-! Connections to a server. A connection is a child of the root of its environment; its copies
share one native handle, which goes with the last of them or with the environment. -/
namespace DbClient

structure Connection where
  env : Nat
  handle : Wrapper
  deriving Repr, DecidableEq

namespace Connection

def setAttr (c : Connection) (attr : Attr) (v : Value) : Act Unit := do
  let h ← c.handle.live
  Act.require (ClientError.withHandle h) (Library.setAttr h attr v)

/-- Hands timeouts to the native library one by one, in whole milliseconds; those that are absent stay as they are.
-/
def setTimeoutList (c : Connection) : List (Attr × Option Duration) → Act Unit
  | [] => pure ()
  | (attr, limit) :: rest => do
    match limit with
    | some d => c.setAttr attr (.int .uint64 (← Act.checked d.millis?))
    | none => pure ()
    c.setTimeoutList rest

def setTimeouts (c : Connection) (t : Timeouts) : Act Unit := c.setTimeoutList t.toList

def setCredentials (c : Connection) : Credentials → Act Unit
  | .password username password => do
    c.setAttr .username (.string username)
    c.setAttr .password (.string password)
  | .external => c.setAttr .externalAuth (.bool true)

/-- Connects under the root of an environment. A connection that cannot be set up is dropped. -/
def connect (env : Nat) (root : Wrapper) (params : ConnectParams) : Act Connection := do
  let parent ← root.live
  let native ← Act.require id (Library.create .connection parent)
  let handle ← Wrapper.adopt env native .connection root .unregisterCallbacks
  let c : Connection := ⟨env, handle⟩
  Act.undoing handle.drop do
    c.setAttr .dbLink (.string params.dblink)
    c.setCredentials params.credentials
    c.setTimeouts params.timeouts
  Act.note (.connected (handle.native (← get)) params.dblink)
  pure c

/-- The version that the server reports in its banner. -/
def serverVersion (c : Connection) : Act Version := do
  let h ← c.handle.live
  let v ← Act.require (ClientError.withHandle h) (Library.getAttr h .serverVersion)
  match v.toHost? .string with
  | none => throw (.conversion .string)
  | some banner =>
    match Version.ofBanner banner with
    | .ok version => pure version
    | .error _ => throw (.conversion .string)

/-- Interrupts the call that waits in this connection. -/
def breakCall (c : Connection) : Act Unit := do
  let h ← c.handle.live
  Act.require (ClientError.withHandle h) (Library.breakCall h)

/-- Sets the failover handler in place of the previous one; none removes it. -/
def setFailoverHandler (c : Connection) (handler : Option FailoverHandler) : Act Unit := do
  let h ← c.handle.live
  Act.update (World.setCallback c.env h (handler.map .failover))

def clone (c : Connection) (w : World) : Connection × World :=
  let (handle, w) := c.handle.clone w
  ({ c with handle := handle }, w)

def drop (c : Connection) (w : World) : World := c.handle.drop w

/-- The diagnostic text of a connection. -/
def text (c : Connection) (w : World) : String := "Connection \x7b handle: " ++ c.handle.text w ++ " \x7d"

end Connection
end DbClient
