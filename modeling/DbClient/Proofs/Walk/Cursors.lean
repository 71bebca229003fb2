import DbClient.Proofs.Scope.Calls
import DbClient.Proofs.Outcomes

/-! Cursors and what they are asked for. No call of the native library leaves a cursor beyond the place behind the last
row, and a call for a row of one resultset changes nothing but its cursor, the last error and the record of calls. -/
namespace DbClient
open Act World

/-! ### Positions -/

namespace Cursor
variable {c : Cursor} {op : FetchOp}

/-- The cursor stands on a row, before the first one or behind the last. -/
def Ranged (c : Cursor) : Prop := c.pos ≤ c.rows.length + 1

/-- All rows are as wide as the first. -/
def Even (c : Cursor) : Prop := ∀ row ∈ c.rows, row.length = c.columnCount

/-- A step forward, as walks take it. -/
lemma fetch_next (c : Cursor) : c.fetch .next =
    if c.pos < c.rows.length then (true, ⟨c.rows, c.pos + 1⟩) else (false, ⟨c.rows, c.rows.length + 1⟩) := by
  unfold fetch target
  by_cases h : c.pos < c.rows.length
  · have hrow : (1 : Int) ≤ c.pos + 1 ∧ (c.pos : Int) + 1 ≤ c.rows.length := by omega
    simp only [h, hrow, if_true]
    rfl
  · have hrow : ¬((1 : Int) ≤ c.pos + 1 ∧ (c.pos : Int) + 1 ≤ c.rows.length) := by omega
    simp only [h, hrow, if_false]

/-- A step ends on a row, or else behind the last one. -/
lemma fetch_next_min (c : Cursor) : c.fetch .next =
    (decide (1 ≤ min (c.pos + 1) (c.rows.length + 1) ∧ min (c.pos + 1) (c.rows.length + 1) ≤ c.rows.length),
      { c with pos := min (c.pos + 1) (c.rows.length + 1) }) := by
  rw [fetch_next]
  split
  · rw [Nat.min_eq_left (by omega), decide_eq_true (by omega)]
  · rw [Nat.min_eq_right (by omega), decide_eq_false (by omega)]

lemma fetch_prev (h : c.Ranged) : c.fetch .prev =
    (decide (1 ≤ c.pos - 1 ∧ c.pos - 1 ≤ c.rows.length), { c with pos := c.pos - 1 }) := by
  unfold Ranged at h
  unfold fetch target
  dsimp only
  split
  · rw [decide_eq_true (by omega), show ((c.pos : Int) - 1).toNat = c.pos - 1 by omega]
  · rw [decide_eq_false (by omega), show c.pos - 1 = 0 by omega]

/-- Any other movement goes straight to its row, or nowhere. -/
lemma fetch_jump (hn : op ≠ .next) (hp : op ≠ .prev) : c.fetch op =
    if 1 ≤ c.target op ∧ c.target op ≤ c.rows.length then (true, { c with pos := (c.target op).toNat })
    else (false, c) := by
  unfold fetch
  cases op with
  | next => exact absurd rfl hn
  | prev => exact absurd rfl hp
  | _ => rfl

lemma Ranged.fetch (h : c.Ranged) (op : FetchOp) : (c.fetch op).2.Ranged := by
  cases op with
  | next =>
    rw [fetch_next_min]
    exact Nat.min_le_right _ _
  | prev =>
    rw [fetch_prev h]
    exact Nat.le_trans (Nat.sub_le _ _) h
  | _ =>
    rw [fetch_jump (by nofun) (by nofun)]
    split
    · rename_i ht
      exact Int.toNat_le.mpr (Int.le_trans ht.2 (Int.le_add_one (Int.le_refl _)))
    · exact h

lemma row?_eq_none (h : c.pos = 0 ∨ c.pos = c.rows.length + 1) : c.row? = none := by
  unfold row?
  split
  · rfl
  · exact List.getElem?_eq_none (by omega)

end Cursor

/-! ### Calls -/

namespace Library
variable {α : Type} {l l' : Library} {op : Primitive} {h stmt r : Address} {c : Cursor}

/-- All cursors are in range. -/
def Ranged (l : Library) : Prop := ∀ r c, l.rsets.get? r = some c → c.Ranged

namespace Ranged

lemma putRset (hl : l.Ranged) (hc : c.Ranged) (r : Address) : Ranged { l with rsets := l.rsets.put r c } := by
  intro a c' hc'
  change (l.rsets.put r c).get? a = some c' at hc'
  rw [Assoc.get?_put] at hc'
  split at hc'
  · obtain rfl := Option.some.inj hc'
    exact hc
  · exact hl a c' hc'

lemma dropResultsets (hl : l.Ranged) (stmt : Address) : (dropResultsets stmt l).Ranged := by
  intro r c hc
  rw [(dropped stmt l).rsets] at hc
  split at hc
  · cases hc
  · exact hl r c hc

/-- A resultset is opened with its cursor before the first row. -/
lemma openResultsets (hl : l.Ranged) (stmt : Address) (rows : List (List (List Value))) :
    (openResultsets stmt rows l).2.Ranged := by
  induction rows generalizing l with
  | nil => exact hl
  | cons first rest ih =>
    have halloc : (l.allocate .resultset (.opened stmt)).2.Ranged := hl
    exact ih (halloc.putRset (Nat.zero_le _) _)

lemma run {body : Library → Option α × Library} (hl : l.Ranged)
    (hb : ∀ m : Library, m.Ranged → (body m).2.Ranged) : (Library.run op h body l).2.Ranged := by
  cases hf : l.failures.get? op with
  | some e =>
    rw [run_injected hf]
    exact hl
  | none =>
    rw [run_free hf]
    exact hb _ hl

lemma withPrepared {f : NativeStatement → String → Library → Option α × Library} (hl : l.Ranged)
    (hf : ∀ st sql, (f st sql l).2.Ranged) : (withPrepared stmt f l).2.Ranged := by
  unfold Library.withPrepared
  split
  · exact hl
  · split
    · exact hl
    · exact hf _ _

lemma withBound {name : String} {pos : Nat} {f : Bound → Library → Option α × Library} (hl : l.Ranged)
    (hf : ∀ b, (f b l).2.Ranged) : (withBound stmt name pos f l).2.Ranged := by
  unfold Library.withBound
  split
  · exact hl
  · split
    · exact hf _
    · exact hl

/-- Whatever is called, cursors stay in range. -/
theorem invoke (hl : l.Ranged) (i : Invocation) : (i.run l).2.Ranged := by
  cases i with
  | create kind parent =>
    refine hl.run fun m hm => ?_
    split
    · exact hm
    · dsimp only
      split <;> exact hm
  | destroy kind h =>
    refine hl.run fun m hm => ?_
    split
    · exact hm
    · exact (show Ranged { m with handles := m.handles.erase h } from hm).dropResultsets h
  | getAttr h attr =>
    refine hl.run fun m hm => ?_
    split
    · exact hm
    · split
      · exact hm
      · split <;> exact hm
  | prepare stmt sql mode =>
    refine hl.run fun m hm => ?_
    split
    · exact hm
    · split
      · exact hm
      · exact hm.dropResultsets stmt
  | bind stmt d => exact hl.run fun m hm => hm.withPrepared fun _ _ => hm
  | register stmt name ty maxLength => exact hl.run fun m hm => hm.withPrepared fun _ _ => hm
  | dataSize stmt name pos => exact hl.run fun m hm => hm.withBound fun _ => hm
  | setDataSize stmt name pos size =>
    refine hl.run fun m hm => hm.withBound fun b => ?_
    split <;> exact hm
  | execute stmt iters memory =>
    exact hl.run fun m hm => hm.withPrepared fun st sql => (hm.dropResultsets stmt).openResultsets stmt _
  | resultset stmt =>
    refine hl.run fun m hm => ?_
    split
    · exact hm
    · split <;> exact hm
  | nextResultset stmt =>
    refine hl.run fun m hm => ?_
    split <;> exact hm
  | fetch rs move =>
    refine hl.run fun m hm => ?_
    split
    · exact hm
    · rename_i c hc
      exact hm.putRset ((hm _ _ hc).fetch move) rs
  | currentRow rs => exact hl
  | columnCount rs =>
    change (Library.columnCount rs l).2.Ranged
    unfold Library.columnCount
    split <;> exact hl
  | columnValue rs index =>
    refine hl.run fun m hm => ?_
    split
    · exact hm
    · split
      · exact hm
      · split <;> exact hm
  | setAttr | breakCall =>
    refine hl.run fun m hm => ?_
    split <;> exact hm

theorem calls (hl : l.Ranged) (h : Calls l l') : l'.Ranged := by
  induction h with
  | refl => exact hl
  | tail _ h ih =>
    cases h with
    | call i => exact ih.invoke i
    | forget => exact ih

end Ranged
end Library

/-! ### Rows of one resultset -/

namespace Library
variable {l : Library} {h : Address} {c : Cursor} {op : FetchOp}

lemma fetch_eq (hc : l.rsets.get? h = some c) (hf : l.failures.get? .fetch = none) (op : FetchOp) :
    fetch h op l = (if (c.fetch op).1 then some () else none,
      { l.called (some .fetch) h with error := none, rsets := l.rsets.put h (c.fetch op).2 }) := by
  rw [fetch, run_free hf]
  simp only [show (l.called (some .fetch) h).rsets.get? h = some c from hc]
  rfl

lemma currentRow_eq (hc : l.rsets.get? h = some c) : currentRow h l = (some c.currentRow, l.called none h) := by
  rw [currentRow, hc]
  rfl

lemma columnCount_eq (hc : l.rsets.get? h = some c) : columnCount h l = (some c.columnCount, l.called none h) := by
  rw [columnCount, hc]

/-- Off the rows no column has a value. -/
lemma columnValue_off (hc : l.rsets.get? h = some c) (hf : l.failures.get? .columnValue = none) (hrow : c.row? = none)
    (i : Nat) : columnValue h i l =
      (none, { l.called (some .columnValue) h with error := some (.single 1002 "fetch out of sequence") }) := by
  rw [columnValue, run_free hf]
  simp only [show (l.called (some .columnValue) h).rsets.get? h = some c from hc, hrow]
  rfl

lemma columnValue_on (hc : l.rsets.get? h = some c) (hf : l.failures.get? .columnValue = none)
    {row : List Value} {v : Value} {i : Nat} (hrow : c.row? = some row) (hi : i ≠ 0) (hv : row[i - 1]? = some v) :
    columnValue h i l = (some v, { l.called (some .columnValue) h with error := none }) := by
  rw [columnValue, run_free hf]
  simp only [show (l.called (some .columnValue) h).rsets.get? h = some c from hc, hrow, if_neg hi, hv]

end Library

variable {w w' w'' : World} {h : Address} {c c' : Cursor} {rs : Resultset}

/-- The cursor of a resultset stands as given. Besides it, only the last error and the record of calls have changed. -/
structure World.Scrolled (h : Address) (c : Cursor) (w w' : World) : Prop where
  cursors : ∀ a, w'.library.rsets.get? a = if h = a then some c else w.library.rsets.get? a
  rest : w' = { w with library := { w.library with
    rsets := w'.library.rsets, error := w'.library.error, calls := w'.library.calls } }

namespace World.Scrolled

lemma cursor (hs : Scrolled h c w w') : w'.library.rsets.get? h = some c := (hs.cursors h).trans (if_pos rfl)

lemma nodes (hs : Scrolled h c w w') : w'.nodes = w.nodes := by rw [hs.rest]

lemma stmts (hs : Scrolled h c w w') : w'.library.stmts = w.library.stmts := by rw [hs.rest]

lemma failures (hs : Scrolled h c w w') : w'.library.failures = w.library.failures := by rw [hs.rest]

lemma put (h : Address) (c : Cursor) (e : Option NativeError) (calls : List Call) (w : World) : Scrolled h c w
    { w with library := { w.library with rsets := w.library.rsets.put h c, error := e, calls := calls } } :=
  ⟨fun _ => Assoc.get?_put _ _ _ _, rfl⟩

lemma stay (hc : w.library.rsets.get? h = some c) (e : Option NativeError) (calls : List Call) :
    Scrolled h c w { w with library := { w.library with error := e, calls := calls } } := by
  refine ⟨fun a => ?_, rfl⟩
  split
  · rename_i ha
    exact ha ▸ hc
  · rfl

lemma refl (hc : w.library.rsets.get? h = some c) : Scrolled h c w w := stay hc w.library.error w.library.calls

lemma trans (hs : Scrolled h c w w') (hs' : Scrolled h c' w' w'') : Scrolled h c' w w'' := by
  refine ⟨fun a => (hs'.cursors a).trans ?_, ?_⟩
  · split
    · rfl
    · rename_i ha
      exact (hs.cursors a).trans (if_neg ha)
  · have h1 := hs.rest
    have h2 := hs'.rest
    rw [h1] at h2
    exact h2

end World.Scrolled

namespace Resultset

/-- The handle of a resultset is alive and leads to a native one. -/
def Reaches (rs : Resultset) (h : Address) (w : World) : Prop :=
  ∃ id n, rs.handle.node = some id ∧ w.Live id n ∧ n.native = h

lemma Reaches.keep (hr : rs.Reaches h w) (hs : Scrolled h c w w') : rs.Reaches h w' := by
  obtain ⟨id, n, hid, hl, hn⟩ := hr
  exact ⟨id, n, hid, ⟨hs.nodes ▸ hl.1, hl.2⟩, hn⟩

lemma Reaches.liveOf {β : Type} {f : Address → Act β} {P : Except ClientError β → World → Prop} (hr : rs.Reaches h w)
    (hf : Ends (f h) w P) : Ends (rs.handle.live >>= f) w P := by
  obtain ⟨id, n, hid, hl, rfl⟩ := hr
  exact Ends.liveOf hid hl hf

lemma Reaches.explain (hr : rs.Reaches h w) (row : Nat) (e : NativeError) :
    rs.explain w (some row) (.ofNative e) = .native e ⟨rs.sql, none, some row, some h.number⟩ := by
  obtain ⟨id, n, hid, hl, rfl⟩ := hr
  rw [Resultset.explain, Wrapper.native_of_live hid hl]
  rfl

/-- A move ends as the cursor says. -/
lemma ends_fetch (hr : rs.Reaches h w) (hc : w.library.rsets.get? h = some c)
    (hf : w.library.failures.get? .fetch = none) (op : FetchOp) :
    Ends (rs.fetch op) w fun r w' => r = .ok (c.fetch op).1 ∧ Scrolled h (c.fetch op).2 w w' := by
  refine hr.liveOf ?_
  have hrun := run_native (Library.fetch h op) w
  rw [Library.fetch_eq hc hf] at hrun
  refine Ends.after hrun ?_
  cases (c.fetch op).1 with
  | true => exact ⟨rfl, .put h _ none _ w⟩
  | false => exact ⟨rfl, .put h _ none _ w⟩

/-- The same where the resultset has to be scrollable. -/
lemma ends_scrolling (hr : rs.Reaches h w) (hc : w.library.rsets.get? h = some c)
    (hf : w.library.failures.get? .fetch = none) (operation : String) (op : FetchOp) :
    Ends (rs.scrolling operation >>= fun _ => rs.fetch op) w fun r w' =>
      rs.scrollable = false ∧ r = .error (.invalidState operation .forwardOnly) ∧ Scrolled h c w w' ∨
        rs.scrollable = true ∧ r = .ok (c.fetch op).1 ∧ Scrolled h (c.fetch op).2 w w' := by
  unfold scrolling
  cases rs.scrollable with
  | false => exact .inl ⟨rfl, rfl, .refl hc⟩
  | true => exact .inr ⟨rfl, ends_fetch hr hc hf op⟩

lemma ends_currentRow (hr : rs.Reaches h w) (hc : w.library.rsets.get? h = some c) :
    Ends rs.currentRow w fun r w' => r = .ok c.currentRow ∧ Scrolled h c w w' := by
  refine hr.liveOf (.get ?_)
  unfold Ends
  rw [run_require, Library.currentRow_eq hc]
  exact ⟨rfl, .stay hc _ _⟩

lemma ends_columnCount (hr : rs.Reaches h w) (hc : w.library.rsets.get? h = some c) :
    Ends rs.columnCount w fun r w' => r = .ok c.columnCount ∧ Scrolled h c w w' := by
  refine hr.liveOf (.get ?_)
  unfold Ends
  rw [run_require, Library.columnCount_eq hc]
  exact ⟨rfl, .stay hc _ _⟩

variable {i : Nat}

lemma ends_column_outside (hr : rs.Reaches h w) (hc : w.library.rsets.get? h = some c)
    (hi : i < 1 ∨ c.columnCount < i) : Ends (rs.column i) w fun r w' =>
      r = .error (.outOfBounds "column index" i 1 c.columnCount) ∧ Scrolled h c w w' := by
  refine Ends.follow (ends_columnCount hr hc) fun v hs => ?_
  rw [if_pos hi]
  exact ⟨rfl, hs⟩

/-- Off the rows there is nothing to be had, and the error says so. -/
lemma ends_column_off (hr : rs.Reaches h w) (hc : w.library.rsets.get? h = some c)
    (hf : w.library.failures.get? .columnValue = none) (hi : ¬(i < 1 ∨ c.columnCount < i)) (hrow : c.row? = none) :
    Ends (rs.column i) w fun r w' => r = .error (.native (.single 1002 "fetch out of sequence")
      ⟨rs.sql, none, some c.currentRow, some h.number⟩) ∧ Scrolled h c w w' := by
  refine Ends.follow (ends_columnCount hr hc) fun v hs => ?_
  rw [if_neg hi]
  refine (hr.keep hs).liveOf ?_
  let l := { v.library.called (some .columnValue) h with error := none }
  have hlook : (native (Library.columnValue h i)).run v =
      (.ok none, { v with library := { l with error := some (.single 1002 "fetch out of sequence") } }) := by
    rw [run_native, Library.columnValue_off hs.cursor (hs.failures ▸ hf) hrow]
  have hrun : (native (Library.currentRow h)).run { v with library := l } =
      (.ok (some c.currentRow), { v with library := l.called none h }) := by
    rw [run_native, Library.currentRow_eq (l := l) hs.cursor]
  have hstay : Scrolled h c v { v with library := l.called none h } := .stay hs.cursor none _
  refine Ends.after hlook (Ends.after (run_native _ _) (Ends.after hrun (.get ⟨?_, hs.trans hstay⟩)))
  exact congrArg Except.error (((hr.keep hs).keep hstay).explain _ _)

lemma ends_column_on (hr : rs.Reaches h w) (hc : w.library.rsets.get? h = some c)
    (hf : w.library.failures.get? .columnValue = none) (hi : ¬(i < 1 ∨ c.columnCount < i)) {row : List Value}
    {x : Value} (hrow : c.row? = some row) (hx : row[i - 1]? = some x) :
    Ends (rs.column i) w fun r w' => r = .ok x ∧ Scrolled h c w w' := by
  refine Ends.follow (ends_columnCount hr hc) fun v hs => ?_
  rw [if_neg hi]
  refine (hr.keep hs).liveOf ?_
  have hrun := run_native (Library.columnValue h i) v
  rw [Library.columnValue_on hs.cursor (hs.failures ▸ hf) hrow (by omega) hx] at hrun
  exact Ends.after hrun ⟨rfl, hs.trans (.stay hs.cursor _ _)⟩

end Resultset
end DbClient
