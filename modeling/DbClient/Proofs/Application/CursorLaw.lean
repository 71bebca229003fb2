import DbClient.Proofs.Application.ReleasedLaw
import DbClient.Proofs.Scope.Places
import DbClient.Proofs.Walk.Cursors

/-! The law of cursors in any application: what calls of a resultset answer that are made one after the other through
any of its wrappers, and where its cursor stands then. -/
namespace DbClient
open Act World

/-! ### Calls with their answers -/

/-- What a call of a resultset answers. -/
inductive CursorReply where
  | moved (b : Bool)
  | number (n : Nat)
  | column (x : Answer)

namespace ResultsetCall

/-- A call with its answer. -/
def ask (rs : Resultset) : ResultsetCall → Act CursorReply
  | next => do return .moved (← rs.next)
  | prev => do return .moved (← rs.prev)
  | first => do return .moved (← rs.first)
  | last => do return .moved (← rs.last)
  | seek mode offset => do return .moved (← rs.seek mode offset)
  | currentRow => do return .number (← rs.currentRow)
  | columnCount => do return .number (← rs.columnCount)
  | get index r => do return .column (← rs.get index r)

/-- Calls one after the other, each through a wrapper of its own, with all their answers. -/
def askAll : List (Resultset × ResultsetCall) → World → List (Except ClientError CursorReply) × World
  | [], w => ([], w)
  | (rs, k) :: calls, w =>
    let (r, w) := (k.ask rs).run w
    let (answers, w) := askAll calls w
    (r :: answers, w)

/-- The row to which a call is to jump that does not go step by step, with the cursor at `p` among `n` rows. -/
def aim? (n p : Nat) : ResultsetCall → Option Int
  | first => some 1
  | last => some n
  | seek .absolute offset => some offset
  | seek .relative offset => some (p + offset)
  | _ => none

/-- The name of a call that needs a scrollable resultset. -/
def scroll? : ResultsetCall → Option String
  | prev => some "prev"
  | first => some "first"
  | last => some "last"
  | seek _ _ => some "seek"
  | _ => none

end ResultsetCall

/-! ### What is to be answered -/

/-- How a call ends that is made through a wrapper of the resultset `h` with its cursor as given: what it answers, and
where the cursor stands then. -/
inductive Resultset.Answers (rs : Resultset) (h : Address) (c : Cursor) :
    ResultsetCall → Except ClientError CursorReply → Nat → Prop
  /-- A step forward ends behind the last row at most. -/
  | next {q : Nat} (hq : q = min (c.pos + 1) (c.rows.length + 1)) :
      Answers rs h c .next (.ok (.moved (decide (1 ≤ q ∧ q ≤ c.rows.length)))) q
  /-- A step back ends before the first row at most. -/
  | prev {q : Nat} (hs : rs.scrollable = true) (hq : (q : Int) = max ((c.pos : Int) - 1) 0) :
      Answers rs h c .prev (.ok (.moved (decide (1 ≤ q ∧ q ≤ c.rows.length)))) q
  /-- A jump to a row that there is goes there. -/
  | hit {k : ResultsetCall} {t : Nat} (hs : rs.scrollable = true) (ht : k.aim? c.rows.length c.pos = some (t : Int))
      (hrow : 1 ≤ t ∧ t ≤ c.rows.length) : Answers rs h c k (.ok (.moved true)) t
  /-- A jump to a row that there is not goes nowhere. -/
  | miss {k : ResultsetCall} {t : Int} (hs : rs.scrollable = true) (ht : k.aim? c.rows.length c.pos = some t)
      (hrow : ¬(1 ≤ t ∧ t ≤ c.rows.length)) : Answers rs h c k (.ok (.moved false)) c.pos
  | forwardOnly {k : ResultsetCall} {operation : String} (hs : rs.scrollable = false)
      (hk : k.scroll? = some operation) : Answers rs h c k (.error (.invalidState operation .forwardOnly)) c.pos
  | currentRow : Answers rs h c .currentRow (.ok (.number (min c.pos c.rows.length))) c.pos
  | columnCount : Answers rs h c .columnCount (.ok (.number c.columnCount)) c.pos
  /-- There is no such column. -/
  | outside {i : Nat} {r : Request} (hi : i < 1 ∨ c.columnCount < i) :
      Answers rs h c (.get i r) (.error (.outOfBounds "column index" i 1 c.columnCount)) c.pos
  /-- The cursor stands before the first row or behind the last. -/
  | off {i : Nat} {r : Request} (hi : 1 ≤ i ∧ i ≤ c.columnCount) (hp : c.pos = 0 ∨ c.pos = c.rows.length + 1) :
      Answers rs h c (.get i r) (.error (.native (.single 1002 "fetch out of sequence")
        ⟨rs.sql, none, some (min c.pos c.rows.length), some h.number⟩)) c.pos
  /-- The cursor stands on a row. -/
  | value {i : Nat} {r : Request} {row : List Value} {v : Value} (hi : 1 ≤ i ∧ i ≤ c.columnCount) (hp : 1 ≤ c.pos)
      (hrow : c.rows[c.pos - 1]? = some row) (hv : row[i - 1]? = some v) :
      Answers rs h c (.get i r) (((v.answer r).mapError .conversion).map .column) c.pos

/-- How calls end that are made one after the other: what they answer, and the cursor at last. -/
inductive Cursor.Tour (h : Address) :
    Cursor → List (Resultset × ResultsetCall) → List (Except ClientError CursorReply) → Cursor → Prop
  | done {c : Cursor} : Tour h c [] [] c
  | call {c c' : Cursor} {rs : Resultset} {k : ResultsetCall} {r : Except ClientError CursorReply} {q : Nat}
      {calls : List (Resultset × ResultsetCall)} {answers : List (Except ClientError CursorReply)}
      (hfirst : rs.Answers h c k r q) (hrest : Tour h ⟨c.rows, q⟩ calls answers c') :
      Tour h c ((rs, k) :: calls) (r :: answers) c'

variable {w w' : World} {h : Address} {c c' : Cursor} {rs : Resultset} {k : ResultsetCall} {q : Nat}
  {r : Except ClientError CursorReply} {calls : List (Resultset × ResultsetCall)}
  {answers : List (Except ClientError CursorReply)}

/-! ### One call -/

namespace Resultset

/-- No call leaves the range. -/
lemma Answers.ranged (ha : rs.Answers h c k r q) (hc : c.Ranged) : Cursor.Ranged ⟨c.rows, q⟩ := by
  change q ≤ c.rows.length + 1
  cases ha with
  | next hq => exact hq ▸ Nat.min_le_right _ _
  | prev hs hq =>
    have hpos : c.pos ≤ c.rows.length + 1 := hc
    omega
  | hit hs ht hrow => exact Nat.le_succ_of_le hrow.2
  | _ => exact hc

/-- A resultset that is not scrollable refuses at once. -/
lemma declines_scroll {operation : String} (hs : rs.scrollable = false) (hk : k.scroll? = some operation) (w : World) :
    (k.ask rs).Declines (.invalidState operation .forwardOnly) w := by
  have hscrolling : (rs.scrolling operation).Declines (.invalidState operation .forwardOnly) w := by
    unfold scrolling
    rw [hs]
    rfl
  cases k with
  | prev | first | last | seek =>
    obtain rfl := Option.some.inj hk
    exact (hscrolling.bind _).bind _
  | _ => cases hk

/-- A step back answers whether it ends on a row. -/
lemma ends_prev (hr : rs.Reaches h w) (hc : w.library.rsets.get? h = some c) (hrange : c.Ranged)
    (hf : w.library.failures.get? .fetch = none) :
    Ends rs.prev w fun r w' => ∃ q, rs.Answers h c .prev (r.map .moved) q ∧ Scrolled h ⟨c.rows, q⟩ w w' := by
  obtain ⟨hs, hr, hw⟩ | ⟨hs, hr, hw⟩ := ends_scrolling hr hc hf "prev" .prev
  · exact ⟨c.pos, hr ▸ .forwardOnly hs rfl, hw⟩
  · rw [Cursor.fetch_prev hrange] at hr hw
    refine ⟨c.pos - 1, ?_, hw⟩
    exact hr ▸ .prev hs (by omega)

/-- A jump answers whether there is the row. -/
lemma ends_jump {operation : String} {op : FetchOp} (hr : rs.Reaches h w) (hc : w.library.rsets.get? h = some c)
    (hf : w.library.failures.get? .fetch = none) (hk : k.scroll? = some operation)
    (ht : k.aim? c.rows.length c.pos = some (c.target op)) (hn : op ≠ .next) (hp : op ≠ .prev) :
    Ends (rs.scrolling operation >>= fun _ => rs.fetch op) w fun r w' =>
      ∃ q, rs.Answers h c k (r.map .moved) q ∧ Scrolled h ⟨c.rows, q⟩ w w' := by
  obtain ⟨hs, hr, hw⟩ | ⟨hs, hr, hw⟩ := ends_scrolling hr hc hf operation op
  · exact ⟨c.pos, hr ▸ .forwardOnly hs hk, hw⟩
  · rw [Cursor.fetch_jump hn hp] at hr hw
    by_cases hrow : 1 ≤ c.target op ∧ c.target op ≤ c.rows.length
    · rw [if_pos hrow] at hr hw
      have hcast : ((c.target op).toNat : Int) = c.target op := Int.toNat_of_nonneg (by omega)
      exact ⟨_, hr ▸ .hit hs (hcast ▸ ht) (by omega), hw⟩
    · rw [if_neg hrow] at hr hw
      exact ⟨c.pos, hr ▸ .miss hs ht hrow, hw⟩

/-- A column that is asked for is there, unless it cannot be or the cursor stands on no row. -/
lemma ends_get {i : Nat} {req : Request} (hr : rs.Reaches h w) (hc : w.library.rsets.get? h = some c)
    (hrange : c.Ranged) (heven : c.Even) (hf : w.library.failures.get? .columnValue = none) :
    Ends (rs.get i req) w fun r w' => rs.Answers h c (.get i req) (r.map .column) c.pos ∧ Scrolled h c w w' := by
  by_cases hi : i < 1 ∨ c.columnCount < i
  · obtain ⟨he, hs⟩ := Ends.failing (ends_column_outside hr hc hi)
    exact ⟨he ▸ .outside hi, hs⟩
  have hwidth : 1 ≤ i ∧ i ≤ c.columnCount := by omega
  by_cases hp : c.pos = 0 ∨ c.pos = c.rows.length + 1
  · obtain ⟨he, hs⟩ := Ends.failing (ends_column_off hr hc hf hi (Cursor.row?_eq_none hp))
    exact ⟨he ▸ .off hwidth hp, hs⟩
  · have hpos : c.pos - 1 < c.rows.length := by
      unfold Cursor.Ranged at hrange
      omega
    have hrow : c.rows[c.pos - 1]? = some c.rows[c.pos - 1] := List.getElem?_eq_getElem hpos
    have hlength : i - 1 < c.rows[c.pos - 1].length := by
      rw [heven _ (List.getElem_mem hpos)]
      omega
    have hvalue := List.getElem?_eq_getElem hlength
    have hcurrent : c.row? = some c.rows[c.pos - 1] := by rw [Cursor.row?, if_neg (by omega), hrow]
    refine Ends.follow (ends_column_on hr hc hf hi hcurrent hvalue) fun v hs => ?_
    rw [Ends, run_ofExcept]
    exact ⟨.value hwidth (by omega) hrow hvalue, hs⟩

end Resultset

theorem ResultsetCall.ends_ask (hr : rs.Reaches h w) (hc : w.library.rsets.get? h = some c) (hrange : c.Ranged)
    (heven : c.Even) (hf : w.library.failures.get? .fetch = none) (hv : w.library.failures.get? .columnValue = none)
    (k : ResultsetCall) :
    Ends (k.ask rs) w fun r w' => ∃ q, rs.Answers h c k r q ∧ Scrolled h ⟨c.rows, q⟩ w w' := by
  cases k with
  | next =>
    refine Ends.giving ?_
    obtain ⟨hr, hw⟩ := Resultset.ends_fetch hr hc hf .next
    rw [Cursor.fetch_next_min] at hr hw
    exact ⟨_, (congrArg (Except.map _) hr).symm ▸ .next rfl, hw⟩
  | prev => exact Ends.giving (Resultset.ends_prev hr hc hrange hf)
  | first => exact Ends.giving (Resultset.ends_jump hr hc hf rfl rfl nofun nofun)
  | last => exact Ends.giving (Resultset.ends_jump hr hc hf rfl rfl nofun nofun)
  | seek mode offset => cases mode <;> exact Ends.giving (Resultset.ends_jump hr hc hf rfl rfl nofun nofun)
  | currentRow =>
    obtain ⟨hr, hw⟩ := Resultset.ends_currentRow hr hc
    exact Ends.giving ⟨c.pos, (congrArg (Except.map _) hr).symm ▸ .currentRow, hw⟩
  | columnCount =>
    obtain ⟨hr, hw⟩ := Resultset.ends_columnCount hr hc
    exact Ends.giving ⟨c.pos, (congrArg (Except.map _) hr).symm ▸ .columnCount, hw⟩
  | get i req => exact Ends.giving ⟨c.pos, Resultset.ends_get hr hc hrange heven hv⟩

/-! ### Calls in a row -/

lemma Cursor.Tour.ranged (ht : Tour h c calls answers c') (hc : c.Ranged) : c'.rows = c.rows ∧ c'.Ranged := by
  induction ht with
  | done => exact ⟨rfl, hc⟩
  | call hfirst _ ih => exact ih (hfirst.ranged hc)

/-- Calls that are made one after the other end as they should, and nothing comes between them. -/
theorem ResultsetCall.tour_askAll (hcalls : ∀ p ∈ calls, p.1.Reaches h w) (hc : w.library.rsets.get? h = some c)
    (hrange : c.Ranged) (heven : c.Even) (hf : w.library.failures.get? .fetch = none)
    (hv : w.library.failures.get? .columnValue = none) :
    ∃ c', c.Tour h calls (askAll calls w).1 c' ∧ Scrolled h c' w (askAll calls w).2 := by
  induction calls generalizing w c with
  | nil => exact ⟨c, .done, .refl hc⟩
  | cons p calls ih =>
    obtain ⟨rs, k⟩ := p
    obtain ⟨q, hanswers, hs⟩ := k.ends_ask (hcalls _ List.mem_cons_self) hc hrange heven hf hv
    obtain ⟨c', hrest, hs'⟩ := ih (fun p hp => (hcalls p (List.mem_cons_of_mem _ hp)).keep hs) hs.cursor
      (hanswers.ranged hrange) heven (hs.failures ▸ hf) (hs.failures ▸ hv)
    exact ⟨c', .call hanswers hrest, hs.trans hs'⟩

/-! ### The law -/

namespace Application
variable {a : Application}

/-- Between two operations all cursors are in range, whatever is made to fail. -/
theorem Reachable.ranged (h : Reachable ⟨false, true⟩ a) : a.world.library.Ranged := by
  induction h with
  | refl => exact fun r c hc => nomatch hc
  | @tail b _ hrun hstep ih =>
    have hb : Reachable ⟨false, true⟩ b := hrun
    obtain ⟨op, hp, hr, rfl⟩ := hstep
    by_cases ha : op.Aside
    · cases op with
      | newVar | setVar => exact ih
      | library k =>
        cases k with
        | foreign => exact absurd hp nofun
        | _ => exact ih
      | _ => exact ha.elim
    · have htells := hb.tells hp hr ⟨Scope.wide_all, fun _ _ => trivial, fun _ _ => trivial, fun _ => trivial⟩ ha
      exact ih.calls htells.within.calls

/-- Cursors scroll. -/
structure CursorLaw (a : Application) : Prop where
  /-- A resultset at hand has its cursor as long as its handle lives. It stands on a row, before the first one or behind
  the last. -/
  cursor : ∀ rs h, a.Holds (.resultset rs) → rs.Reaches h a.world →
    ∃ c, a.world.library.rsets.get? h = some c ∧ c.pos ≤ c.rows.length + 1
  /-- Any calls through wrappers of one resultset, when none is made to fail, answer as they should and leave the cursor
  where it should be. Nothing else changes but the last error and the record of calls. -/
  calls : ∀ h c, a.world.library.rsets.get? h = some c → (∀ row ∈ c.rows, row.length = c.columnCount) →
    a.world.library.failures.get? .fetch = none → a.world.library.failures.get? .columnValue = none →
    ∀ calls : List (Resultset × ResultsetCall), (∀ p ∈ calls, p.1.Reaches h a.world) →
      ∃ answers c' w', ResultsetCall.askAll calls a.world = (answers, w') ∧ c.Tour h calls answers c' ∧
        c'.rows = c.rows ∧ c'.pos ≤ c'.rows.length + 1 ∧ Scrolled h c' a.world w'
  /-- A resultset that is not scrollable refuses at once to do anything but a step forward. -/
  forwardOnly : ∀ rs k operation, rs.scrollable = false → ResultsetCall.scroll? k = some operation →
    (k.ask rs).Declines (.invalidState operation .forwardOnly) a.world

/-- The law of cursors holds whenever an application is between two operations, whatever was made to fail before. -/
theorem Reachable.cursorLaw (h : Reachable ⟨false, true⟩ a) : CursorLaw a where
  cursor rs r hheld hreaches := by
    obtain ⟨id, n, hid, hl, rfl⟩ := hreaches
    have hlent : rs.Lent a.world := (h.placed_of_holds hheld).fine (h.fit.housed_of_holds hheld)
    obtain ⟨c, hc⟩ := Option.isSome_iff_exists.mp (hlent.cursor h.standing id n hid hl)
    exact ⟨c, hc, h.ranged _ _ hc⟩
  calls r c hc heven hf hv calls hreaches := by
    obtain ⟨c', htour, hs⟩ := ResultsetCall.tour_askAll hreaches hc (h.ranged r c hc) heven hf hv
    obtain ⟨hrows, hrange⟩ := htour.ranged (h.ranged r c hc)
    exact ⟨_, c', _, rfl, htour, hrows, hrange, hs⟩
  forwardOnly rs k operation hs hk := Resultset.declines_scroll hs hk a.world

/-- A cursor goes behind the second of two rows, comes back, and stays where it is when a jump fails. -/
theorem cursorLaw_after_execution :
    let stmt : Statement := ⟨0, ⟨0, ⟨some 1⟩⟩, ⟨some 2⟩⟩
    let rs : Resultset := ⟨⟨some 3⟩, some "q", true⟩
    let a := play [.createEnvironment default, .environment ⟨0, ⟨some 0⟩⟩ (.connect (.ofPassword "db" "user" "word")),
      .connection ⟨0, ⟨some 1⟩⟩ .statement, .statement stmt (.setFetchMode .scrollable),
      .library (.addResultset "q" [[.null], [.bool true]]), .statement stmt (.execute "q"), .statement stmt .resultset]
      start
    let p := ResultsetCall.askAll
      [(rs, .last), (rs, .next), (rs, .next), (rs, .prev), (rs, .seek .relative (-2))] a.world
    CursorLaw a ∧ a.Holds (.resultset rs) ∧
      (p.1.map fun r => match r with
        | .ok (.moved b) => some b
        | _ => none) = [some true, some false, some false, some true, some false] ∧
      p.2.library.rsets.values.map Cursor.pos = [2] := by
  intro stmt rs a p
  exact ⟨Reachable.cursorLaw (runs_play ⟨trivial, by decide +kernel, trivial, by decide +kernel, trivial,
    by decide +kernel, trivial, by decide +kernel, trivial, by decide +kernel, trivial, by decide +kernel, trivial,
    by decide +kernel, trivial⟩), by decide +kernel, by decide +kernel, by decide +kernel⟩

end Application
end DbClient
