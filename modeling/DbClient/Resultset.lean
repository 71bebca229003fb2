import DbClient.Handle.Wrapper
import DbClient.Value.Convert

/-! Resultsets: rows that an execution returns, read through a cursor, and walks over their rows
with a callback. The native resultset belongs to its statement and goes when that is prepared or
executed again. -/
namespace DbClient

structure Resultset where
  handle : Wrapper
  /-- The text of the statement, for errors. -/
  sql : Option String
  scrollable : Bool
  deriving Repr, DecidableEq

/-- A step of a walk over rows: an operation of the client beside a state of the callback's own. -/
abbrev RowAct (σ α : Type) : Type := ExceptT ClientError (StateM (σ × World)) α

namespace RowAct
variable {σ α : Type}

/-- An operation of the client in the course of a walk. -/
def ofAct (a : Act α) : RowAct σ α := ExceptT.mk fun p =>
  let (r, w) := a.run p.2
  (r, (p.1, w))

/-- Reads and changes the callback's state. -/
def state (f : σ → α × σ) : RowAct σ α := modifyGet fun p => let (a, s) := f p.1; (a, (s, p.2))

/-- Sweeps up after a step, whether it fails or not. -/
def sweeping (sweep : World → World) (a : RowAct σ α) : RowAct σ α := ExceptT.mk fun p =>
  let (r, s, w) := a.run p
  (r, (s, sweep w))

end RowAct

namespace Resultset

/-- Tells where an error arose. -/
def explain (rs : Resultset) (w : World) (row : Option Nat) (e : ClientError) : ClientError :=
  let e := (e.withSql rs.sql).withHandle (rs.handle.native w)
  row.elim e fun row => e.withRow row

/-- Moves the cursor; false if there is no such row. -/
def fetch (rs : Resultset) (op : FetchOp) : Act Bool := do
  let h ← rs.handle.live
  match ← Act.native (Library.fetch h op) with
  | some () => pure true
  | none =>
    match ← Act.native Library.takeError with
    | none => pure false
    | some e =>
      let row ← Act.native (Library.currentRow h)
      throw (rs.explain (← get) row (.ofNative e))

/-- Goes on only in a resultset that can be scrolled. -/
def scrolling (rs : Resultset) (operation : String) : Act Unit := do
  if !rs.scrollable then throw (.invalidState operation .forwardOnly)

def next (rs : Resultset) : Act Bool := rs.fetch .next

def prev (rs : Resultset) : Act Bool := do
  rs.scrolling "prev"
  rs.fetch .prev

def first (rs : Resultset) : Act Bool := do
  rs.scrolling "first"
  rs.fetch .first

def last (rs : Resultset) : Act Bool := do
  rs.scrolling "last"
  rs.fetch .last

def seek (rs : Resultset) (mode : SeekMode) (offset : Int) : Act Bool := do
  rs.scrolling "seek"
  rs.fetch (match mode with
    | .absolute => .absolute offset
    | .relative => .relative offset)

/-- The number of the current row; zero before the first. -/
def currentRow (rs : Resultset) : Act Nat := do
  let h ← rs.handle.live
  Act.require (rs.explain (← get) none) (Library.currentRow h)

def columnCount (rs : Resultset) : Act Nat := do
  let h ← rs.handle.live
  Act.require (rs.explain (← get) none) (Library.columnCount h)

/-- The value of a column of the current row, counted from one. -/
def column (rs : Resultset) (index : Nat) : Act Value := do
  let count ← rs.columnCount
  if index < 1 ∨ count < index then throw (.outOfBounds "column index" index 1 count)
  let h ← rs.handle.live
  match ← Act.native (Library.columnValue h index) with
  | some v => pure v
  | none =>
    let e ← Act.native Library.lastError
    let row ← Act.native (Library.currentRow h)
    throw (rs.explain (← get) row (.ofNative e))

/-- A column as it is requested. -/
def get (rs : Resultset) (index : Nat) (r : Request) : Act Answer := do
  let v ← rs.column index
  Act.ofExcept ((v.answer r).mapError .conversion)

/-- The number of rows behind the cursor, for a walk of known length. -/
def rowsLeft (rs : Resultset) (w : World) : Nat :=
  ((w.library.rsets.get? (rs.handle.native w)).map fun c => c.rows.length - c.pos).getD 0

section
variable {σ α : Type}

/-- Steps through rows until there are no more or one is declined; counts those accepted. -/
def walk (rs : Resultset) (callback : Resultset → RowAct σ Bool) : Nat → Nat → RowAct σ Nat
  | 0, count => pure count
  | fuel + 1, count => do
    if ← RowAct.ofAct rs.next then
      if ← callback rs then walk rs callback fuel (count + 1) else pure count
    else pure count

/-- Calls back for each row that is left, until one is declined. Returns how many were accepted. -/
def forEach (rs : Resultset) (callback : Resultset → RowAct σ Bool) : RowAct σ Nat := do
  let left := rs.rowsLeft (← MonadState.get).2
  let count ← rs.walk callback (left + 1) 0
  RowAct.ofAct (Act.note (.accepted count))
  pure count

/-- A callback for what an adapter makes of a row. -/
def adapted (adapter : Resultset → RowAct σ α) (callback : α → RowAct σ Bool) (rs : Resultset) :
    RowAct σ Bool := do
  callback (← adapter rs)

/-- The same as `forEach` with a callback for what an adapter makes of each row. -/
def forEachAdapted (rs : Resultset) (callback : α → RowAct σ Bool) (adapter : Resultset → RowAct σ α) :
    RowAct σ Nat := rs.forEach (adapted adapter callback)

end

def drop (rs : Resultset) (w : World) : World := rs.handle.drop w

/-- The diagnostic text of a resultset. -/
def text (rs : Resultset) (w : World) : String :=
  "Resultset \x7b handle: " ++ rs.handle.text w ++ ", scrollable: " ++ boolText rs.scrollable ++ " \x7d"

end Resultset
end DbClient
