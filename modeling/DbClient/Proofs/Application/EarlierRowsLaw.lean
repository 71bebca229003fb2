import DbClient.Proofs.Application.PrepareLaw
import DbClient.Proofs.Application.ReleasedLaw
import DbClient.Proofs.Walk.Aborted

/-! The law of earlier rows in any application: what a failing execution leaves of the executions before it, when it
fails before the native statement has been executed. -/
namespace DbClient
open Act World

variable {t : Terms} {hs : Multiset Nat} {a b : Application} {op : Operation} {id : Nat} {n m : Node}
  {d e : StatementData} {w w' : World} {s : Statement} {sql : String}

/-! ### Statements that have not been executed -/

namespace Status

lemma rank_lt_executed {x : Status} (h : x ≠ .executed) : x.rank < Status.executed.rank := by
  cases x with
  | executed => exact absurd rfl h
  | _ => decide

lemma ofMode_ne_executed (mode : PrepareMode) : ofMode mode ≠ .executed := by
  cases mode <;> nofun

end Status

namespace Statement

/-- What a statement that has not been executed reports when it is asked for a resultset: first it misses its
handle, then its data, then the stage. -/
def refusal (s : Statement) (operation : String) (w : World) : ClientError :=
  match s.handle.isNull w, s.data? w with
  | true, _ => .nullHandle (s.handle.kind w)
  | false, none => .nullHandle .statement
  | false, some d => .invalidState operation (.statusBelow d.status .executed)

/-- A statement gives no resultset and delivers no row. -/
structure Withholds (s : Statement) (w : World) : Prop where
  resultset : s.resultset.Declines (s.refusal "resultset" w) w
  nextResultset : s.nextResultset.Declines (s.refusal "next_resultset" w) w
  fetch : ∀ {σ : Type} (callback : Resultset → RowAct σ Bool), (s.fetch callback).Declines (s.refusal "resultset" w) w
  fetchAdapted : ∀ {σ α : Type} (callback : α → RowAct σ Bool) adapter,
    (s.fetchAdapted callback adapter).Declines (s.refusal "resultset" w) w

lemma declines_takeResultset (h : ∀ d, s.data? w = some d → d.status ≠ .executed) (operation : String)
    (ask : Address → Library → Option Address × Library) :
    (s.takeResultset operation ask).Declines (s.refusal operation w) w := by
  by_cases hn : s.handle.isNull w = true
  · rw [refusal, hn]
    exact Declines.live_bind hn _
  · obtain ⟨id, n, hid, hl⟩ := Wrapper.isNull_eq_false.mp (Bool.eq_false_iff.mpr hn)
    have hends : Ends (s.takeResultset operation ask) w fun r w' => r = .error (s.refusal operation w) ∧ w' = w := by
      unfold refusal
      rw [Bool.eq_false_iff.mpr hn]
      refine Ends.liveOf hid hl (Ends.data (fun d hd => ?_) fun hd => ?_)
      · rw [hd]
        exact Ends.requireStatus (fun hle => absurd (Status.rank_lt_executed (h d hd)) (Nat.not_lt_of_le hle))
          fun _ => ⟨rfl, rfl⟩
      · rw [hd]
        exact ⟨rfl, rfl⟩
    exact Prod.ext hends.1 hends.2

/-- A statement that has not been executed withholds what the native library may still list for it. -/
theorem withholds (h : ∀ d, s.data? w = some d → d.status ≠ .executed) : s.Withholds w where
  resultset := declines_takeResultset h _ _
  nextResultset := declines_takeResultset h _ _
  fetch _ := (RowAct.Declines.ofAct (declines_takeResultset h _ _)).bind _
  fetchAdapted _ _ := (RowAct.Declines.ofAct (declines_takeResultset h _ _)).bind _

/-- A statement is not executed any more once it has been given a text, or one has been refused. -/
lemma unexecuted_prepare (hw : w.Forest) (hid : s.handle.node = some id) (hd : w.HasData id n d) (mode : PrepareMode)
    (sql : String) :
    Ends (s.prepare mode sql) w fun _ w' => ∀ m e, w'.HasData id m e → e.status ≠ .executed := by
  obtain ⟨status, ⟨ids, hl, -⟩, hout⟩ := s.ends_prepare hw hid hd.1 hd.2 mode sql
  intro m e he
  obtain rfl := hl.unique he.1
  obtain rfl : { d.reset sql with status := status } = e := Extra.statement.inj (Option.some.inj he.2)
  obtain ⟨-, rfl, -⟩ | ⟨-, rfl⟩ := hout
  · exact Status.ofMode_ne_executed mode
  · nofun

lemma unexecuted_execute (hw : Sound hs w) (hid : s.handle.node = some id) (hd : w.HasData id n d)
    (hno : ¬(StatementCall.execute sql).Launches s w) :
    Ends (s.execute sql) w fun _ w' => ∀ m e, w'.HasData id m e → e.status ≠ .executed := by
  have hprepare := s.unexecuted_prepare hw.forest hid hd .prepare sql
  refine Ends.bind (fun _ v hr => ?_) fun e v hr => hprepare.elim hr
  have hno' : ¬s.Launches v := fun hv => hno ⟨congrArg Prod.fst hr, by rw [hr]; exact hv⟩
  have hgrows : Alters Anyhow id Anyhow w v := (s.alters_prepare fun _ _ => ⟨trivial, trivial⟩).rel hr
  have hid' : id < v.nodes.next := Nat.lt_of_lt_of_le (hw.forest.table.handed id n hd.1.1) hgrows.nodes
  obtain ⟨-, halters⟩ := s.alters_aborted id hno'
  intro m e he
  obtain ⟨n', d', hd', rfl⟩ := halters.data hid' m e he
  exact hprepare.elim hr n' d' hd'

end Statement

namespace Operation

/-- An operation executes the statement of a node, and gets so far that the native statement is executed. -/
def Launches (id : Nat) (w : World) : Operation → Prop
  | statement s k => s.handle.node = some id ∧ k.Launches s w
  | _ => False

/-- What does not execute a statement does not take it to the last stage. -/
lemma bears_unexecuted (hno : ∀ s k, op = .statement s k → s.handle.node = some id → ¬k.Executes) (w : World) :
    op.Bears id (StatementData.Preserves fun d => d.status ≠ .executed) w := by
  cases op with
  | statement s k =>
    intro hid
    have hk := hno s k rfl hid
    cases k with
    | prepare mode sql => exact fun c => ⟨fun _ => nofun, fun _ => Status.ofMode_ne_executed mode⟩
    | execute sql => exact absurd trivial hk
    | executePrepared => exact absurd trivial hk
    | bind index var direction kind size => exact fun _ _ _ _ hc => hc
    | setArraySize size => exact fun _ _ _ hc => hc
    | allowRebinding allow => exact fun _ hc => hc
    | setFetchMode mode => exact fun _ hc => hc
    | _ => trivial
  | _ => trivial

end Operation

namespace Application

/-- No operation of a list executes the statement of a node so far that the native statement is executed. -/
def Rests (id : Nat) : List Operation → Application → Prop := Throughout fun op w => ¬op.Launches id w

/-- A statement that has not been executed is not after an operation that does not get so far. -/
lemma Reachable.unexecuted_after (ht : t.foreign = false) (h : Reachable t a) (hp : op.Permitted t) (hr : a.Ready op)
    (hno : ¬op.Launches id a.world) (hid : id < a.world.nodes.next)
    (hbefore : ∀ n d, a.world.HasData id n d → d.status ≠ .executed) (he : (op.after a).world.HasData id m e) :
    e.status ≠ .executed := by
  by_cases hexecutes : ∃ s k, op = .statement s k ∧ s.handle.node = some id ∧ k.Executes
  · obtain ⟨s, k, rfl, hs, hk⟩ := hexecutes
    have hno' : ¬k.Launches s a.world := fun hk => hno ⟨hs, hk⟩
    obtain ⟨n, d, hd, -⟩ := (h.grows id ht hp hr).data hid m e he
    cases k with
    | execute sql =>
      rw [world_after (f := fun _ => 0) rfl] at he
      exact Statement.unexecuted_execute h.fit.sound hs hd hno' m e he
    | executePrepared =>
      rw [world_after (f := fun _ => 0) rfl] at he
      obtain ⟨-, halters⟩ := s.alters_aborted id hno'
      obtain ⟨n', d', hd', rfl⟩ := halters.data hid m e he
      exact hbefore n' d' hd'
    | _ => exact hk.elim
  · have halters := h.alters (V := Anyhow) ht hp hr receives_anyhow (op.sets_anyhow _)
      (op.bears_unexecuted (fun s k ho hs hk => hexecutes ⟨s, k, ho, hs, hk⟩) _)
    obtain ⟨n', d', hd', hkept⟩ := halters.data hid m e he
    exact hkept (hbefore n' d' hd')

/-- What is left of the rows of earlier executions when an execution fails before the native statement has been
executed: for the stage of the statement, in the transfer of its input, or natively. -/
structure EarlierRowsLaw (a : Application) : Prop where
  /-- Whatever stands in the way, the call fails, and nothing is recorded as executed. -/
  failure : ∀ (s : Statement) (k : StatementCall) r w, k.Executes → ¬k.Launches s a.world →
    (k.perform s).run a.world = (r, w) → (∃ e, r = .error e) ∧ w.library.executions = a.world.library.executions
  /-- A resultset that a statement has given is released by the next execution, whether this fails or not, and by
  whichever object of the node it is asked for. From then on no call of the resultset succeeds. -/
  released : ∀ (s s' : Statement) k k' rs b c, a.Ready (.statement s k) → Gives s rs a.world k →
    Runs ⟨false, true⟩ (Operation.after (.statement s k) a) b → s'.handle.node = s.handle.node → k'.Executes →
    b.Ready (.statement s' k') → Runs ⟨false, true⟩ (Operation.after (.statement s' k') b) c →
    (∀ call : ResultsetCall, (call.perform rs).Declines
      (call.complaint rs.scrollable (rs.handle.kind c.world)) c.world) ∧
    ∀ {σ α : Type} (callback : Resultset → RowAct σ Bool) (inner : α → RowAct σ Bool) adapter,
      (rs.forEach callback).Declines (.nullHandle (rs.handle.kind c.world)) c.world ∧
        (rs.forEachAdapted inner adapter).Declines (.nullHandle (rs.handle.kind c.world)) c.world
  /-- When the call that fails was to prepare a new text, or the old one had not been executed before, the statement
  gives no resultset and no row until the native statement is executed. -/
  withheld : ∀ (s : Statement) k ops, a.Ready (.statement s k) → k.Executes → ¬k.Launches s a.world →
    (k = .executePrepared → ∀ d, s.data? a.world = some d → d.status ≠ .executed) →
    Legal ⟨false, true⟩ ops (Operation.after (.statement s k) a) →
    (∀ id, s.handle.node = some id → Rests id ops (Operation.after (.statement s k) a)) →
    s.Withholds (play ops (Operation.after (.statement s k) a)).world
  /-- A statement that was executed before stays so, and the native library keeps its resultsets with their rows. -/
  kept : ∀ (s : Statement) d r w, .statement s ∈ a.items → s.data? a.world = some d →
    Status.prepared.rank ≤ d.status.rank → ¬s.Launches a.world → s.executePrepared.run a.world = (r, w) →
    s.data? w = some d ∧ s.chain w = s.chain a.world

/-- The law of earlier rows holds whenever an application is between two operations, and any primitive may fail at any
time. -/
theorem Reachable.earlierRowsLaw (h : Reachable ⟨false, true⟩ a) : EarlierRowsLaw a where
  failure s k r w hk hno hr := by
    obtain ⟨he, haside⟩ := (k.ends_aborted hk hno).elim hr
    exact ⟨he, haside.executions⟩
  released s s' k k' rs b c hr hg hrun hsame hk hr' hrun' := by
    obtain ⟨id, j, m, hid, hj, hm, hbelow⟩ := h.below rfl hr hg hrun
    have hfirst : Reachable ⟨false, true⟩ (Operation.after (.statement s k) a) := h.next trivial hr
    have hb : Reachable ⟨false, true⟩ b := Relation.ReflTransGen.trans hfirst hrun
    have hsound := hb.fit.sound
    have hnext : Reachable ⟨false, true⟩ (Operation.after (.statement s' k') b) := hb.next trivial hr'
    have hnull : rs.handle.isNull (Operation.after (.statement s' k') b).world = true := by
      cases k' with
      | execute sql =>
        rw [world_after (f := fun _ => 0) rfl]
        have hpath : Path ⟨false, true⟩ (b.held, b.world) (b.held, ((s'.execute sql).run b.world).2) :=
          s'.course_execute sql hsound
        exact released_of_cleared hpath hsound (s'.cleared_execute hsound (hsame.trans hid) sql) hj hm hbelow
      | executePrepared =>
        rw [world_after (f := fun _ => 0) rfl]
        have hpath : Path ⟨false, true⟩ (b.held, b.world) (b.held, (s'.executePrepared.run b.world).2) :=
          s'.course_executePrepared hsound
        exact released_of_cleared hpath hsound (s'.cleared_executePrepared hsound (hsame.trans hid)) hj hm hbelow
      | _ => exact hk.elim
    have hstep : Runs ⟨false, true⟩ b (Operation.after (.statement s' k') b) :=
      Relation.ReflTransGen.single ⟨.statement s' k', trivial, hr', rfl⟩
    obtain ⟨m', hm'⟩ := (hb.carries hstep).there j m hm
    have hgone : rs.handle.isNull c.world = true := (hnext.carries hrun').isNull hj hm' hnull
    exact ⟨fun call => ResultsetCall.declines hgone call,
      fun callback inner adapter => ⟨rs.declines_forEach hgone _, rs.declines_forEach hgone _⟩⟩
  withheld s k ops hr hk hno hbefore hl hrests := by
    refine Statement.withholds fun e he => ?_
    obtain ⟨id, m, hid, hm⟩ := Statement.data?_eq_some.mp he
    obtain ⟨n, hn⟩ := h.node_of_holds (hr.1 _ List.mem_cons_self) hid
    have hlt : id < a.world.nodes.next := h.fit.sound.forest.table.handed id n hn
    have hp : Operation.Permitted ⟨false, true⟩ (.statement s k) := trivial
    have hgrows := h.grows id rfl hp hr
    have hnow : ∀ n d, (Operation.after (.statement s k) a).world.HasData id n d → d.status ≠ .executed := by
      intro n' d' hd'
      cases k with
      | execute sql =>
        obtain ⟨n, d, hd, -⟩ := hgrows.data hlt n' d' hd'
        rw [world_after (f := fun _ => 0) rfl] at hd'
        exact Statement.unexecuted_execute h.fit.sound hid hd hno n' d' hd'
      | executePrepared =>
        refine h.unexecuted_after rfl hp hr (fun hlaunches => hno hlaunches.2) hlt (fun n d hd => ?_) hd'
        exact hbefore rfl d (Statement.data?_eq_some.mpr ⟨id, n, hid, hd⟩)
      | _ => exact hk.elim
    exact (h.next hp hr).data_play (R := fun d => d.status ≠ .executed) rfl (Nat.lt_of_lt_of_le hlt hgrows.nodes)
      (fun hb hp hr hno hid hbefore _ _ => hb.unexecuted_after rfl hp hr hno hid hbefore) hl (hrests id hid) hnow hm
  kept s d r w hs hd hrank hno hr := by
    obtain ⟨id, n, hid, hdata, -⟩ := (h.seated rfl).data hs hd
    obtain ⟨st, hst, -⟩ := (h.bindings rfl).agree id n d hdata hrank
    have hknown : (a.world.library.stmts.get? n.native).isSome := Option.isSome_iff_exists.mpr ⟨st, hst⟩
    obtain ⟨-, hkeeps⟩ := (s.keepsChain_aborted h.fit.sound (h.owns rfl) hid hdata.1 hknown hno).elim hr
    obtain ⟨m, hm, hnative, hextra, hlisted, hrsets⟩ := hkeeps n hdata.1
    refine ⟨Statement.data?_eq_some.mpr ⟨id, m, hid, hm, hextra.trans hdata.2⟩, ?_⟩
    unfold Statement.chain
    rw [Wrapper.native_of_live hid hm, Wrapper.native_of_live hid hdata.1, hnative, hlisted]
    exact List.filterMap_congr fun r hr => by rw [hrsets r hr]

/-- A statement is executed and gives a resultset, then the native library is made to refuse a text: what was given
is released, and the statement gives nothing any more. -/
theorem earlierRowsLaw_after_refusal :
    let s : Statement := ⟨0, ⟨0, ⟨some 1⟩⟩, ⟨some 2⟩⟩
    let rs : Resultset := ⟨⟨some 3⟩, some "q", false⟩
    let a := play [.createEnvironment default,
      .environment ⟨0, ⟨some 0⟩⟩ (.connect (.ofPassword "db" "user" "word")), .library (.addResultset "q" [[.null]]),
      .connection ⟨0, ⟨some 1⟩⟩ (.prepare "q"), .statement s .executePrepared, .statement s .resultset,
      .library (.failNext .prepare (.single 942 "table or view does not exist"))] start
    EarlierRowsLaw a ∧ a.Ready (.statement s (.execute "r")) ∧ ¬(StatementCall.execute "r").Launches s a.world ∧
      let w := ((s.execute "r").run a.world).2
      (rs.next.run w).1 = .error (.nullHandle .resultset) ∧
        (s.resultset.run w).1 = .error (.invalidState "resultset" (.statusBelow .closed .executed)) := by
  refine ⟨Reachable.earlierRowsLaw (runs_play ?_), by decide +kernel, fun h => absurd h.1 (by decide +kernel),
    by decide +kernel, by decide +kernel⟩
  exact ⟨trivial, by decide +kernel, trivial, by decide +kernel, trivial, by decide +kernel, trivial,
    by decide +kernel, trivial, by decide +kernel, trivial, by decide +kernel, nofun, by decide +kernel, trivial⟩

/-- A statement that was executed is executed again, and the native execution fails. The resultset that it gives
afterwards is that of the first execution, and so is the row. -/
theorem failed_execution_leaves_rows :
    let s : Statement := ⟨0, ⟨0, ⟨some 1⟩⟩, ⟨some 2⟩⟩
    let rs : Resultset := ⟨⟨some 3⟩, some "q", false⟩
    let a := play [.createEnvironment default,
      .environment ⟨0, ⟨some 0⟩⟩ (.connect (.ofPassword "db" "user" "word")), .library (.addResultset "q" [[.null]]),
      .connection ⟨0, ⟨some 1⟩⟩ (.prepare "q"), .statement s .executePrepared,
      .library (.failNext .execute (.single 942 "table or view does not exist"))] start
    Reachable ⟨false, true⟩ a ∧ a.Ready (.statement s .executePrepared) ∧ ¬s.Launches a.world ∧
      let w := (s.executePrepared.run a.world).2
      (s.executePrepared.run a.world).1.toOption = none ∧ w.library.executions = a.world.library.executions ∧
        (s.resultset.run w).1 = .ok (some rs) ∧ (rs.next.run (s.resultset.run w).2).1 = .ok true := by
  refine ⟨runs_play ?_, by decide +kernel, by decide +kernel, by decide +kernel, by decide +kernel, by decide +kernel,
    by decide +kernel⟩
  exact ⟨trivial, by decide +kernel, trivial, by decide +kernel, trivial, by decide +kernel, trivial,
    by decide +kernel, trivial, by decide +kernel, nofun, by decide +kernel, trivial⟩

end Application
end DbClient
