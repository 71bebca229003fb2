import DbClient.Session.Reply

/-! Scripted row callbacks: which columns they read, how they answer on each call, and whether they
make a primitive fail on the way. -/
namespace DbClient

/-- What a callback returns: nothing, whether to go on, or that or an error. -/
inductive Flow where
  | unit | bool | result
  deriving Repr, DecidableEq

/-- What a callback answers on one call. -/
inductive RowAnswer where
  | accept
  | decline
  | fail (text : String)
  deriving Repr, DecidableEq

structure RowScript where
  flow : Flow
  columns : List (Nat × Request)
  /-- The answers of the calls in order; behind them all rows are accepted. -/
  answers : List RowAnswer
  /-- The first column that fails stands for the whole row. -/
  propagate : Bool
  /-- The call, counted from one, on which the next use of a primitive is made to fail. -/
  failure : Option (Nat × Primitive × NativeError)

namespace RowScript

/-- Reads columns of the current row. -/
def readCells (rs : Resultset) (propagate : Bool) :
    List (Nat × Request) → Act (List (Except ClientError Answer))
  | [] => pure []
  | (index, r) :: rest => do
    let cell ← tryCatch (do return .ok (← rs.get index r)) fun e =>
      if propagate then throw e else pure (.error e)
    return cell :: (← readCells rs propagate rest)

/-- Records a row and answers. -/
def answerRow (s : RowScript) (row : RowRecord) : RowAct Tally Bool := do
  let call ← RowAct.state fun t : Tally => (t.calls + 1, ⟨t.calls + 1, t.rows ++ [row]⟩)
  match s.failure with
  | some (n, op, e) =>
    if call = n then
      RowAct.ofAct (Act.update fun w => { w with library := w.library.failNext op e })
  | none => pure ()
  match s.flow, s.answers[call - 1]? with
  | .unit, _ => pure true
  | _, some .decline => pure false
  | .bool, some (.fail _) => pure false
  | .result, some (.fail text) => throw (.callback text)
  | _, _ => pure true

/-- Reads a row for the callback; an error that stands for the row ends the walk. -/
def adapter (s : RowScript) (rs : Resultset) : RowAct Tally RowRecord := do
  return .cells (← RowAct.ofAct (readCells rs s.propagate s.columns))

/-- Reads and answers a row; an error that stands for the row is recorded, unless the callback can
return it. -/
def callback (s : RowScript) (rs : Resultset) : RowAct Tally Bool := do
  let row ← tryCatch (s.adapter rs) fun e =>
    if s.flow = .result then throw e else pure (.failed e)
  s.answerRow row

end RowScript

/-- Plays a walk over rows. -/
def Turn.walk (a : RowAct Tally Nat) : Turn Reply := ExceptT.mk fun s =>
  let (r, tally, w) := a.run (Tally.empty, s.world)
  let reply := match r with
    | .ok count => .ok (.walked count tally)
    | .error e => .error (.failed e (some tally))
  (reply, { s with world := w })

end DbClient
