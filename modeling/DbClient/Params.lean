import DbClient.Kind
import DbClient.Number.Integer
import DbClient.Text.Numeral

/-! Parameters: of environments, and of connections with their credentials and network timeouts. -/
namespace DbClient

/-- The parameters of an environment. -/
structure InitParams where
  mode : CreateMode
  /-- The greatest number of variables bound to one statement. -/
  maxBinds : Nat
  deriving Repr, DecidableEq

/-- The parameters for a mode; there is room for 65535 variables. -/
def InitParams.ofMode (mode : CreateMode) : InitParams := ⟨mode, 65535⟩

instance : Inhabited InitParams := ⟨.ofMode default⟩

/-- How a user makes himself known to the server. -/
inductive Credentials where
  | password (username password : String)
  | external
  deriving Repr, DecidableEq

/-- A span of time. -/
structure Duration where
  seconds : Nat
  nanos : Nat
  deriving Repr, DecidableEq

namespace Duration

def ofMillis (n : Nat) : Duration := ⟨n / 1000, n % 1000 * 1000000⟩

/-- The whole milliseconds of a span, if they fit into a word of 64 bits. -/
def millis? (d : Duration) : Option (Fixed .uint64) :=
  Fixed.ofInt? .uint64 (d.seconds * 1000 + d.nanos / 1000000)

/-- A number with a fraction of so many digits, of which zeros at the end are left out. -/
def fractional (whole fraction width : Nat) : String :=
  let digits := (Text.paddedDecimal width fraction).toList.reverse.dropWhile (· = '0')
  Text.decimal whole ++ (if digits.isEmpty then "" else "." ++ String.ofList digits.reverse)

/-- The diagnostic text of a span, in the greatest unit that it reaches. -/
def text (d : Duration) : String :=
  if 0 < d.seconds then fractional d.seconds d.nanos 9 ++ "s"
  else if 1000000 ≤ d.nanos then fractional (d.nanos / 1000000) (d.nanos % 1000000) 6 ++ "ms"
  else if 1000 ≤ d.nanos then fractional (d.nanos / 1000) (d.nanos % 1000) 3 ++ "µs"
  else Text.decimal d.nanos ++ "ns"

end Duration

/-- Network timeouts; none means that there is no limit. -/
structure Timeouts where
  call : Option Duration
  send : Option Duration
  receive : Option Duration
  deriving Repr, DecidableEq

namespace Timeouts

def unlimited : Timeouts := ⟨none, none, none⟩

/-- The timeouts under the attributes that carry them. -/
def toList (t : Timeouts) : List (Attr × Option Duration) :=
  [(.callTimeout, t.call), (.sendTimeout, t.send), (.receiveTimeout, t.receive)]

/-- The diagnostic text of timeouts. -/
def text (t : Timeouts) : String :=
  "Timeouts \x7b call: " ++ limit t.call ++ ", send: " ++ limit t.send ++ ", receive: "
    ++ limit t.receive ++ " \x7d"
where
  limit : Option Duration → String
    | none => "None"
    | some d => "Some(" ++ d.text ++ ")"

end Timeouts

/-- The parameters of a connection. -/
structure ConnectParams where
  dblink : String
  credentials : Credentials
  timeouts : Timeouts
  deriving Repr, DecidableEq

/-- The parameters of a connection by name and password, without timeouts. -/
def ConnectParams.ofPassword (dblink username password : String) : ConnectParams :=
  ⟨dblink, .password username password, .unlimited⟩

end DbClient
