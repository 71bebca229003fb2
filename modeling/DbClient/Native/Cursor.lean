import DbClient.Value.Basic

/-! Cursors over the rows of a resultset: before the first row, on a row, or behind the last. -/
namespace DbClient

/-- A movement of a cursor; rows count from one. -/
inductive FetchOp where
  | next
  | prev
  | first
  | last
  | absolute (n : Int)
  | relative (n : Int)
  deriving Repr, DecidableEq

/-- The rows of a resultset and a position in `0 … rows + 1`. -/
structure Cursor where
  rows : List (List Value)
  pos : Nat

namespace Cursor

/-- The row that a movement aims at. -/
def target (c : Cursor) : FetchOp → Int
  | .next => c.pos + 1
  | .prev => c.pos - 1
  | .first => 1
  | .last => c.rows.length
  | .absolute n => n
  | .relative n => c.pos + n

/-- Moves to a row that exists. Otherwise a step forward ends behind the last row, a step back
before the first one, and any other movement leaves the cursor where it is. -/
def fetch (c : Cursor) (op : FetchOp) : Bool × Cursor :=
  let t := c.target op
  if 1 ≤ t ∧ t ≤ c.rows.length then (true, { c with pos := t.toNat })
  else match op with
    | .next => (false, { c with pos := c.rows.length + 1 })
    | .prev => (false, { c with pos := 0 })
    | _ => (false, c)

/-- The number of the current row: zero before the first, the last one behind it. -/
def currentRow (c : Cursor) : Nat := min c.pos c.rows.length

/-- The width of the first row. -/
def columnCount (c : Cursor) : Nat := (c.rows.head?.map List.length).getD 0

/-- The row under the cursor. -/
def row? (c : Cursor) : Option (List Value) :=
  if c.pos = 0 then none else c.rows[c.pos - 1]?

end Cursor
end DbClient
