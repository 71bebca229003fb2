import DbClient.Kind
import DbClient.Value.Type
import DbClient.Version

/-! Errors of the native library and errors of the client, with their messages. An error of the
native library gathers context on its way out; what is known first stays. -/
namespace DbClient

/-- One code and message of the native library. -/
structure FaultInfo where
  code : Int
  message : String
  deriving Repr, DecidableEq

def FaultInfo.text (i : FaultInfo) : String := "ORA-" ++ Text.paddedDecimal 5 i.code ++ ": " ++ i.message

/-- What a native call reports when it fails. -/
inductive NativeError where
  | fault (infos : List FaultInfo)
  | invalidHandle
  | stillExecuting
  | noData
  | unknown (code : Int)
  deriving Repr, DecidableEq

namespace NativeError

def single (code : Int) (message : String) : NativeError := fault [⟨code, message⟩]

def message : NativeError → String
  | fault infos => "; ".intercalate (infos.map FaultInfo.text)
  | invalidHandle => "invalid handle passed to native call"
  | stillExecuting => "asynchronous call not yet completed, still executing"
  | noData => "no data"
  | unknown code => "native call failed with unknown return code " ++ Text.decimal code

/-- The name of the kind of failure. -/
def name : NativeError → String
  | fault _ => "Fault"
  | invalidHandle => "InvalidHandle"
  | stillExecuting => "StillExecuting"
  | noData => "NoData"
  | unknown _ => "Unknown"

/-- The first code of a fault. -/
def code? : NativeError → Option Int
  | fault (i :: _) => some i.code
  | _ => none

end NativeError

/-- Where an error of the native library arose. -/
structure Context where
  sql : Option String
  bind : Option String
  row : Option Nat
  handle : Option Nat
  deriving Repr, DecidableEq

namespace Context

def empty : Context := ⟨none, none, none, none⟩

def isEmpty (c : Context) : Bool := c.sql.isNone && c.bind.isNone && c.row.isNone && c.handle.isNone

/-- A text between back ticks. -/
def ticked (s : String) : String := "\x60" ++ s ++ "\x60"

def text (c : Context) : String :=
  if c.isEmpty then ""
  else
    let facts := [c.sql.map fun s => "sql: " ++ ticked s, c.bind.map fun s => "bind: " ++ ticked s,
      c.row.map fun n => "row: " ++ Text.decimal n, c.handle.map fun n => "handle: " ++ Text.hex n]
    " (" ++ ", ".intercalate (facts.filterMap id) ++ ")"

end Context

/-- What in the state of an object stands against an operation. -/
inductive Obstacle where
  | statusBelow (found needed : Status)
  | alreadyTransient
  | alreadyExecuted
  | forwardOnly
  | described (text : String)
  deriving Repr, DecidableEq

def Obstacle.message : Obstacle → String
  | statusBelow found needed => "statement is " ++ found.name ++ ", " ++ needed.name ++ " required"
  | alreadyTransient => "handle is already wrapped as transient"
  | alreadyExecuted => "statement is already executed, prepare it again to bind new variables"
  | forwardOnly => "resultset is forward-only"
  | described text => text

/-- Why an operation of the client does not come to its end. Each of these is an error that it returns, but for the
last one: a number does not fit into a word, and the operation stops where it is, and the program with it. -/
inductive ClientError where
  | native (source : NativeError) (context : Context)
  | nullHandle (kind : HandleKind)
  | invalidState (operation : String) (obstacle : Obstacle)
  | bindAlreadyUsed (name : String)
  | rebindBadType (name : String) (bound requested : ValueType)
  | unsupported (feature : String) (version : Version)
  | outOfBounds (what : String) (value min max : Nat)
  | conversion (ty : ValueType)
  | callback (text : String)
  | overflow
  deriving Repr, DecidableEq

/-- The class of an error, whatever its details. -/
inductive ErrorClass where
  | externalOperation | nullHandle | invalidState | capabilityUnavailable | bounds | conversion | callback | overflow
  deriving Repr, DecidableEq

def ErrorClass.name : ErrorClass → String
  | externalOperation => "ExternalOperation"
  | nullHandle => "NullHandle"
  | invalidState => "InvalidState"
  | capabilityUnavailable => "CapabilityUnavailable"
  | bounds => "Bounds"
  | conversion => "Conversion"
  | callback => "Callback"
  | overflow => "Overflow"

namespace ClientError

def ofNative (e : NativeError) : ClientError := native e Context.empty

/-- The name of the cause. -/
def name : ClientError → String
  | native .. => "Db"
  | nullHandle _ => "NullHandle"
  | invalidState .. => "InvalidState"
  | bindAlreadyUsed _ => "BindAlreadyUsed"
  | rebindBadType .. => "RebindBadType"
  | unsupported .. => "Unsupported"
  | outOfBounds .. => "OutOfBounds"
  | conversion _ => "Conversion"
  | callback _ => "Callback"
  | overflow => "Overflow"

/-- The text of the error that lies behind this one, if there is one. -/
def sourceText? : ClientError → Option String
  | native source _ => some source.message
  | callback text => some text
  | _ => none

def errorClass : ClientError → ErrorClass
  | native .. => .externalOperation
  | nullHandle _ => .nullHandle
  | invalidState .. | bindAlreadyUsed _ | rebindBadType .. => .invalidState
  | unsupported .. => .capabilityUnavailable
  | outOfBounds .. => .bounds
  | conversion _ => .conversion
  | callback _ => .callback
  | overflow => .overflow

def message : ClientError → String
  | native source context => source.message ++ context.text
  | nullHandle kind => "required " ++ kind.name ++ " handle is null or already released"
  | invalidState operation obstacle =>
    "operation " ++ Context.ticked operation ++ " is not allowed: " ++ obstacle.message
  | bindAlreadyUsed name => "bind variable " ++ Context.ticked name ++ " is already used"
  | rebindBadType name bound requested =>
    "bind variable " ++ Context.ticked name ++ " is bound as " ++ bound.name
      ++ " and can't be rebound as " ++ requested.name
  | unsupported feature version => feature ++ " is not supported by server version " ++ version.text
  | outOfBounds what value min max =>
    what ++ " = " ++ Text.decimal value ++ " is out of range [" ++ Text.decimal min ++ "; "
      ++ Text.decimal max ++ "]"
  | conversion ty => "can't convert value from/to " ++ ty.name
  | callback text => "row callback failed: " ++ text
  | overflow => "number does not fit into a word"

/-- Changes the context of a native error; other errors have none. -/
def mapContext (f : Context → Context) : ClientError → ClientError
  | native source context => native source (f context)
  | e => e

def withSql (sql : Option String) : ClientError → ClientError :=
  mapContext fun c => { c with sql := c.sql.or sql }

def withBind (name : String) : ClientError → ClientError :=
  mapContext fun c => { c with bind := c.bind.or (some name) }

def withRow (row : Nat) : ClientError → ClientError :=
  mapContext fun c => { c with row := c.row.or (some row) }

def withHandle (handle : Address) : ClientError → ClientError :=
  mapContext fun c => { c with handle := c.handle.or (some handle.number) }

end ClientError
end DbClient
