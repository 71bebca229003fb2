import DbClient.Text.Hex

/-! Native handles and the small enumerations of the client: kinds of handles, modes, directions, attributes and
events, each with the name it carries in diagnostics. -/
namespace DbClient

/-- The address of a native resource. The client never looks behind one; address zero stands for none. -/
structure Address where
  number : Nat
  deriving Repr, DecidableEq

namespace Address

def null : Address := ⟨0⟩

instance : Inhabited Address := ⟨null⟩

def isNull (a : Address) : Bool := a.number = 0

/-- The diagnostic text of an address. -/
def text (a : Address) : String := "NativeHandle(" ++ Text.hex a.number ++ ")"

end Address

/-- What a native handle stands for. -/
inductive HandleKind where
  | environment | connection | statement | resultset | lob | object
  deriving Repr, DecidableEq

def HandleKind.all : List HandleKind := [environment, connection, statement, resultset, lob, object]

def HandleKind.name : HandleKind → String
  | environment => "Environment"
  | connection => "Connection"
  | statement => "Statement"
  | resultset => "Resultset"
  | lob => "Lob"
  | object => "Object"

/-- The mode in which an environment is created. -/
inductive CreateMode where
  | default | threaded | object | events
  deriving Repr, DecidableEq

instance : Inhabited CreateMode := ⟨.default⟩

namespace CreateMode

def name : CreateMode → String
  | default => "Default"
  | threaded => "Threaded"
  | object => "Object"
  | events => "Events"

/-- The mode as a set of flags. -/
def flags : CreateMode → Nat
  | default => 0
  | threaded => 1
  | object => 2
  | events => 4

def isThreaded (m : CreateMode) : Bool := m.flags % 2 = 1

end CreateMode

/-- The way data of a bound variable travel. -/
inductive Direction where
  | input | output | both
  deriving Repr, DecidableEq

instance : Inhabited Direction := ⟨.input⟩

namespace Direction

def name : Direction → String
  | input => "In"
  | output => "Out"
  | both => "InOut"

def isIn (d : Direction) : Bool := d ≠ output

def isOut (d : Direction) : Bool := d ≠ input

end Direction

/-- The discipline under which a vector is bound: one element per iteration, or a table that travels
as a whole. -/
inductive VectorKind where
  | regular | table
  deriving Repr, DecidableEq

instance : Inhabited VectorKind := ⟨.regular⟩

def VectorKind.name : VectorKind → String
  | regular => "Regular"
  | table => "PlSqlTable"

inductive FetchMode where
  | forwardOnly | scrollable
  deriving Repr, DecidableEq

instance : Inhabited FetchMode := ⟨.forwardOnly⟩

def FetchMode.name : FetchMode → String
  | forwardOnly => "ForwardOnly"
  | scrollable => "Scrollable"

inductive SeekMode where
  | absolute | relative
  deriving Repr, DecidableEq

def SeekMode.name : SeekMode → String
  | absolute => "Absolute"
  | relative => "Relative"

/-- How far a statement is analysed when it is prepared. -/
inductive PrepareMode where
  | prepare | parse | describe
  deriving Repr, DecidableEq

def PrepareMode.name : PrepareMode → String
  | prepare => "Prepare"
  | parse => "Parse"
  | describe => "Describe"

/-- The stage that a statement has reached. -/
inductive Status where
  | closed | prepared | parsed | described | executed
  deriving Repr, DecidableEq

def Status.all : List Status := [closed, prepared, parsed, described, executed]

namespace Status

def name : Status → String
  | closed => "Closed"
  | prepared => "Prepared"
  | parsed => "Parsed"
  | described => "Described"
  | executed => "Executed"

def rank : Status → Nat
  | closed => 0
  | prepared => 1
  | parsed => 2
  | described => 3
  | executed => 4

/-- The stage that a preparation of the given depth leads to. -/
def ofMode : PrepareMode → Status
  | .prepare => prepared
  | .parse => parsed
  | .describe => described

end Status

/-- Attributes of native handles. -/
inductive Attr where
  | dbLink | username | password | externalAuth | serverVersion
  | callTimeout | sendTimeout | receiveTimeout | bindArraySize | fetchMode | rowCount
  deriving Repr, DecidableEq

namespace Attr

def all : List Attr :=
  [dbLink, username, password, externalAuth, serverVersion, callTimeout, sendTimeout, receiveTimeout,
    bindArraySize, fetchMode, rowCount]

def name : Attr → String
  | dbLink => "DbLink"
  | username => "Username"
  | password => "Password"
  | externalAuth => "ExternalAuth"
  | serverVersion => "ServerVersion"
  | callTimeout => "CallTimeout"
  | sendTimeout => "SendTimeout"
  | receiveTimeout => "ReceiveTimeout"
  | bindArraySize => "BindArraySize"
  | fetchMode => "FetchMode"
  | rowCount => "RowCount"

end Attr

inductive FailoverEvent where
  | begin | done | abort | reauth | error
  deriving Repr, DecidableEq

def FailoverEvent.all : List FailoverEvent := [begin, done, abort, reauth, error]

def FailoverEvent.name : FailoverEvent → String
  | begin => "Begin"
  | done => "End"
  | abort => "Abort"
  | reauth => "Reauth"
  | error => "Error"

inductive FailoverReply where
  | ok | retry
  deriving Repr, DecidableEq

instance : Inhabited FailoverReply := ⟨.ok⟩

def FailoverReply.name : FailoverReply → String
  | ok => "Ok"
  | retry => "Retry"

/-- The locking discipline of the structures shared within an environment. -/
inductive SyncMode where
  | safe | unguarded
  deriving Repr, DecidableEq

instance : Inhabited SyncMode := ⟨.unguarded⟩

def SyncMode.name : SyncMode → String
  | safe => "Safe"
  | unguarded => "Unsafe"

end DbClient
