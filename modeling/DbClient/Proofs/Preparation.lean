import DbClient.Proofs.Frame.Statements
import DbClient.Proofs.Native

/-! The outcome of a preparation, and what a statement is good for before one has succeeded. -/
namespace DbClient
open Act World

variable {w w' : World} {id : Nat} {n : Node} {s : Statement} {d : StatementData}

namespace Statement

/-- A preparation with its result: the data are reset, no resultset is wrapped below the node any more, and the
stage tells whether the native library has taken the text. -/
structure Renewed (mode : PrepareMode) (sql : String) (id : Nat) (n : Node) (d : StatementData) (w' : World)
    (status : Status) (r : Except ClientError Unit) : Prop where
  node : ∃ ids, w'.Live id ((n.without ids).keeping { d.reset sql with status := status }) ∧ w'.Cleared (n.without ids)
  outcome : (r = .ok () ∧ status = .ofMode mode ∧
      w'.library.stmts.get? n.native = some ⟨some (sql, mode), ∅, [], [], none⟩) ∨
    (∃ e, r = .error e) ∧ status = .closed

theorem ends_prepare (hw : w.Forest) (hid : s.handle.node = some id) (hl : w.Live id n) (hx : n.Keeps d)
    (mode : PrepareMode) (sql : String) :
    Ends (s.prepare mode sql) w fun r w' => ∃ status, Renewed mode sql id n d w' status r := by
  obtain ⟨count, v, ids, hrelease, hv, hc⟩ := cleared_releaseResultsets hw hid hl
  have hdata : s.data? v = some d := data?_eq_some.mpr ⟨id, _, hid, hv, hx⟩
  refine Ends.liveOf hid hl (Ends.after hrelease (Ends.dataOf hdata (Ends.afterUpdate ?_)))
  rw [putData_of_live hid hv]
  -- from here on no node changes but that of the statement
  have hcleared : ∀ {u : World}, Still v u → u.Cleared (n.without ids) := fun hu => hu.clears hc rfl
  have hclosed : Still v ((v.modifyNode id (Node.keeping (d.reset sql))).freeBuffers d.binds.buffers) :=
    (Still.keeping _ id v).trans (.freeBuffers _ _)
  have hlive : ((v.modifyNode id (Node.keeping (d.reset sql))).freeBuffers d.binds.buffers).Live id
      ((n.without ids).keeping (d.reset sql)) := hv.keeping _
  generalize (v.modifyNode id (Node.keeping (d.reset sql))).freeBuffers d.binds.buffers = u at hclosed hlive
  refine Ends.require (fun _ l hp => Ends.afterUpdate ?_) fun l _ => ?_
  · have hlib : World.Live { u with library := l } id ((n.without ids).keeping (d.reset sql)) := hlive
    have hstill : Still u { u with library := l } := .of_eq rfl rfl rfl
    rw [putData_of_live hid hlib]
    refine ⟨.ofMode mode, ⟨ids, hlib.keeping _, hcleared ?_⟩, .inl ⟨rfl, rfl, ?_⟩⟩
    · exact (hclosed.trans hstill).trans ((Still.keeping _ id _).trans (.of_eq rfl rfl rfl))
    · exact ((Library.prepared hp).stmts _).trans (if_pos rfl)
  · have hstill : Still u { u with library := l.lastError.2 } := .of_eq rfl rfl rfl
    exact ⟨.closed, ⟨ids, hlive, hcleared (hclosed.trans hstill)⟩, .inr ⟨⟨_, rfl⟩, rfl⟩⟩

/-- After a preparation no resultset is wrapped below the node of a statement, whatever became of the text. -/
lemma cleared_prepare (hw : w.Forest) (hid : s.handle.node = some id) (mode : PrepareMode) (sql : String) :
    Ends (s.prepare mode sql) w fun _ w' => ∀ m, w'.Live id m → w'.Cleared m := by
  by_cases hl : ∃ n, w.Live id n
  · obtain ⟨n, hl⟩ := hl
    by_cases hx : ∃ d, n.Keeps d
    · obtain ⟨d, hx⟩ := hx
      obtain ⟨status, ⟨ids, hlive, hc⟩, -⟩ := ends_prepare hw hid hl hx mode sql
      intro m hm
      obtain rfl := hlive.unique hm
      exact hc
    · obtain ⟨count, v, ids, hrelease, hv, hc⟩ := cleared_releaseResultsets hw hid hl
      refine Ends.liveOf hid hl (Ends.after hrelease (Ends.data (fun d hd => ?_) fun _ m hm => ?_))
      · have hkeep : (n.without ids).Keeps d := keeps_of_data? hid hv hd
        exact absurd ⟨d, hkeep⟩ hx
      · obtain rfl := hv.unique hm
        exact hc
  · refine Ends.live (fun i n hi hn => ?_) fun _ m hm => absurd ⟨m, hm⟩ hl
    obtain rfl := Option.some.inj (hid.symm.trans hi)
    exact absurd ⟨n, hn⟩ hl

/-! ### Before a preparation has succeeded -/

end Statement

namespace StatementCall

/-- The name of a call and the stage that it needs, for the calls that need one. Positions count from one. -/
def gate? : StatementCall → Option (String × Status)
  | bind (.position 0) _ _ _ _ => none
  | bind _ _ _ _ _ => some ("bind", .prepared)
  | register _ _ _ => some ("register", .prepared)
  | setArraySize _ => some ("set_bind_array_size", .prepared)
  | executePrepared => some ("execute", .prepared)
  | resultset => some ("resultset", .executed)
  | nextResultset => some ("next_resultset", .executed)
  | _ => none

/-- No call needs less than a text. -/
lemma gate?_rank {k : StatementCall} {operation : String} {needed : Status} (hk : k.gate? = some (operation, needed)) :
    Status.closed.rank < needed.rank := by
  unfold gate? at hk
  split at hk <;> cases hk <;> decide

/-- The variable that a call binds is there. -/
def Meant (w : World) : StatementCall → Prop
  | bind _ var _ _ _ => (w.vars.get? var).isSome
  | _ => True

/-- A call fails when the statement has not reached the stage that the call needs. Nothing has happened then, but
that an execution has released the resultsets. -/
theorem ends_below {k : StatementCall} {operation : String} {needed : Status} (hw : w.Forest)
    (hid : s.handle.node = some id) (hl : w.Live id n) (hx : n.Keeps d) (hk : k.gate? = some (operation, needed))
    (hm : k.Meant w) (hd : d.status.rank < needed.rank) : Ends (k.perform s) w fun r w' =>
      r = .error (.invalidState operation (.statusBelow d.status needed)) ∧
        (w' = w ∨ ∃ count, s.releaseResultsets.run w = (.ok count, w')) := by
  have hdata : s.data? w = some d := Statement.data?_eq_some.mpr ⟨id, n, hid, hl, hx⟩
  have hbelow : ∀ {β : Type} {f : Unit → Act β} {v : World},
      (v = w ∨ ∃ count, s.releaseResultsets.run w = (.ok count, v)) →
      Ends (Statement.requireStatus d needed operation >>= f) v fun r w' =>
        r = .error (.invalidState operation (.statusBelow d.status needed)) ∧
          (w' = w ∨ ∃ count, s.releaseResultsets.run w = (.ok count, w')) := fun hv =>
    Ends.requireStatus (fun hle => absurd hd (Nat.not_lt_of_le hle)) fun _ => ⟨rfl, hv⟩
  cases k with
  | bind index var direction kind size =>
    obtain ⟨v, hv⟩ := Option.isSome_iff_exists.mp hm
    obtain ⟨hname, rfl, rfl⟩ : index.toName = .ok index.text ∧ "bind" = operation ∧ Status.prepared = needed := by
      cases index with
      | name x => exact ⟨rfl, Prod.mk.inj (Option.some.inj hk)⟩
      | position i =>
        cases i with
        | zero => cases hk
        | succ i => exact ⟨rfl, Prod.mk.inj (Option.some.inj hk)⟩
    refine Ends.failing (Ends.get ?_)
    rw [hv]
    refine Ends.liveOf hid hl ?_
    rw [hname]
    exact Ends.dataOf hdata (hbelow (.inl rfl))
  | register name ty maxLength =>
    obtain ⟨rfl, rfl⟩ := Prod.mk.inj (Option.some.inj hk)
    exact Ends.failing (Ends.liveOf hid hl (Ends.dataOf hdata (hbelow (.inl rfl))))
  | setArraySize size =>
    obtain ⟨rfl, rfl⟩ := Prod.mk.inj (Option.some.inj hk)
    exact Ends.failing (Ends.liveOf hid hl (Ends.dataOf hdata (hbelow (.inl rfl))))
  | executePrepared =>
    obtain ⟨rfl, rfl⟩ := Prod.mk.inj (Option.some.inj hk)
    obtain ⟨count, v, ids, hrelease, hv, -⟩ := Statement.cleared_releaseResultsets hw hid hl
    have hdata' : s.data? v = some d := Statement.data?_eq_some.mpr ⟨id, _, hid, hv, hx⟩
    have hload : Ends s.load w fun r w' => r = .error (.invalidState "execute" (.statusBelow d.status .prepared)) ∧
        (w' = w ∨ ∃ count, s.releaseResultsets.run w = (.ok count, w')) :=
      Ends.liveOf hid hl (Ends.after hrelease (Ends.dataOf hdata' (hbelow (.inr ⟨count, hrelease⟩))))
    exact Ends.failing (Ends.failing hload)
  | resultset =>
    obtain ⟨rfl, rfl⟩ := Prod.mk.inj (Option.some.inj hk)
    exact Ends.failing (Ends.liveOf hid hl (Ends.dataOf hdata (hbelow (.inl rfl))))
  | nextResultset =>
    obtain ⟨rfl, rfl⟩ := Prod.mk.inj (Option.some.inj hk)
    exact Ends.failing (Ends.liveOf hid hl (Ends.dataOf hdata (hbelow (.inl rfl))))
  | _ => cases hk

end StatementCall

/-- The release of its resultsets calls nothing on the native handle of a statement. -/
lemma Statement.calls_releaseResultsets {t : Terms} {count : Nat} (hw : w.Forest) (how : Owns t w)
    (hid : s.handle.node = some id) (hl : w.Live id n) (ho : n.owned = true)
    (hr : s.releaseResultsets.run w = (.ok count, w')) :
    ∃ cs, w'.calls = w.calls ++ cs ∧ ∀ c ∈ cs, c.2 ≠ n.native := by
  obtain ⟨heq, hb⟩ := Wrapper.releaseChildren_eq hw hid hl fun n => decide (n.kind = .resultset)
  rw [releaseResultsets, run_modifyGet, heq] at hr
  obtain ⟨-, rfl⟩ := Prod.mk.inj hr
  refine ⟨_, hw.calls_retireAll hb, fun c hc he => ?_⟩
  obtain ⟨j, hj, hcj⟩ := List.mem_flatMap.mp hc
  obtain ⟨m, hm⟩ := hb.live j hj
  -- what is destroyed belongs to another node, and no two nodes own one handle
  have hne : j ≠ id := fun hji => hw.not_mem_postorder hl.1 (fun _ => List.mem_of_mem_filter) (hji ▸ hj)
  rw [destruction, hm.1] at hcj
  cases hmo : m.owned with
  | false => simp [hmo] at hcj
  | true =>
    simp only [hmo, if_true, Option.map_some, Option.getD_some, List.mem_singleton] at hcj
    exact hne (how.unique j id m n hm hl hmo ho (by rw [← he, hcj]))

end DbClient
