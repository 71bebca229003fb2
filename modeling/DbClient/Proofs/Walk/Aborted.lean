import DbClient.Proofs.Frame.Application
import DbClient.Proofs.Preparation
import DbClient.Proofs.Transfer.Execution
import DbClient.Proofs.Walk.Chain

/-! Executions that are broken off before the native statement has been executed. The resultsets of the statement have
been released by then, but the native library has kept them, and the statement its stage. -/
namespace DbClient
open Act World

/-! ### Rows -/

namespace Library
variable {α : Type} {l l' l'' : Library} {op : Primitive} {a stmt : Address}

/-- Statements list the same resultsets, with the same rows and cursors. -/
structure KeepsRows (l l' : Library) : Prop where
  listed : ∀ s, l'.listed s = l.listed s
  rsets : l'.rsets = l.rsets

namespace KeepsRows

@[refl] lemma refl (l : Library) : KeepsRows l l := ⟨fun _ => rfl, rfl⟩

lemma trans (h : KeepsRows l l') (h' : KeepsRows l' l'') : KeepsRows l l'' :=
  ⟨fun s => (h'.listed s).trans (h.listed s), h'.rsets.trans h.rsets⟩

lemma of_eq (stmts : l'.stmts = l.stmts) (rsets : l'.rsets = l.rsets) : KeepsRows l l' :=
  ⟨fun s => by rw [Library.listed, Library.listed, stmts], rsets⟩

lemma run {body : Library → Option α × Library} (hb : ∀ m, KeepsRows m (body m).2) (l : Library) :
    KeepsRows l (Library.run op a body l).2 := by
  unfold Library.run
  dsimp only
  split
  · exact of_eq rfl rfl
  · have h := hb { l.called (some op) a with error := none }
    exact ⟨h.listed, h.rsets⟩

lemma withBound {name : String} {pos : Nat} {body : Bound → Library → Option α × Library}
    (hb : ∀ b m, m.bound? stmt name = some b → KeepsRows m (body b m).2) (l : Library) :
    KeepsRows l (Library.withBound stmt name pos body l).2 := by
  unfold Library.withBound
  split
  · exact of_eq rfl rfl
  · rename_i b hbound
    split
    · exact hb b l hbound
    · exact of_eq rfl rfl

lemma setDataSize (name : String) (pos size : Nat) (l : Library) :
    KeepsRows l (Library.setDataSize stmt name pos size l).2 := by
  refine run (fun m => withBound (fun b m' _ => ?_) m) l
  split
  · refine ⟨fun s => ?_, rfl⟩
    simp only [Library.listed, Assoc.get?_modify]
    split
    · rw [Option.map_map]
      rfl
    · rfl
  · exact of_eq rfl rfl

/-- A statement that is not executed keeps its resultsets. -/
lemma execute {iters : Nat} {memory : Memory} (h : Library.execute stmt iters memory l = (none, l')) :
    KeepsRows l l' := by
  unfold Library.execute Library.run at h
  dsimp only at h
  split at h
  · obtain ⟨-, rfl⟩ := Prod.mk.inj h
    exact of_eq rfl rfl
  · unfold Library.withPrepared at h
    split at h
    · obtain ⟨-, rfl⟩ := Prod.mk.inj h
      exact of_eq rfl rfl
    · split at h
      · obtain ⟨-, rfl⟩ := Prod.mk.inj h
        exact of_eq rfl rfl
      · cases h

end KeepsRows
end Library

/-- A preparation is no execution. -/
lemma Library.executions_prepare (stmt : Address) (sql : String) (mode : PrepareMode) (l : Library) :
    (Library.prepare stmt sql mode l).2.executions = l.executions := by
  unfold Library.prepare Library.run
  dsimp only
  split
  · rfl
  · split
    · rfl
    · split
      · rfl
      · exact Library.executions_dropResultsets stmt _

/-! ### What a statement keeps -/

namespace World
variable {w w' w'' : World} {id : Nat} {n : Node}

/-- A node stays, with what is kept beside it, and the native library keeps the chain of its statement. -/
def KeepsChain (id : Nat) (w w' : World) : Prop :=
  ∀ n, w.Live id n → ∃ m, w'.Live id m ∧ m.native = n.native ∧ m.extra = n.extra ∧
    w'.library.listed n.native = w.library.listed n.native ∧
    ∀ r ∈ w.library.listed n.native, w'.library.rsets.get? r = w.library.rsets.get? r

namespace KeepsChain

lemma of_rows (nodes : w'.nodes = w.nodes) (library : w.library.KeepsRows w'.library) : KeepsChain id w w' :=
  fun n hn => ⟨n, ⟨nodes ▸ hn.1, hn.2⟩, rfl, rfl, library.listed _, fun r _ => by rw [library.rsets]⟩

lemma trans (h : KeepsChain id w w') (h' : KeepsChain id w' w'') : KeepsChain id w w'' := by
  intro n hn
  obtain ⟨m, hm, h1, h2, h3, h4⟩ := h n hn
  obtain ⟨k, hk, k1, k2, k3, k4⟩ := h' m hm
  rw [h1] at k3 k4
  exact ⟨k, hk, k1.trans h1, k2.trans h2, k3.trans h3, fun r hr => (k4 r (h3 ▸ hr)).trans (h4 r hr)⟩

instance : Std.Refl (KeepsChain id) := ⟨fun _ => of_rows rfl (.refl _)⟩

instance : IsTrans World (KeepsChain id) := ⟨fun _ _ _ => trans⟩

end KeepsChain

/-- The native library keeps all chains. -/
def KeepsRows (w w' : World) : Prop := w.library.KeepsRows w'.library

instance : Std.Refl KeepsRows := ⟨fun w => .refl w.library⟩

instance : IsTrans World KeepsRows := ⟨fun _ _ _ h h' => Library.KeepsRows.trans h h'⟩

end World

namespace BindObject

/-- The way into the buffers leaves resultsets alone. -/
lemma keepsRows_loading (stmt : Address) (o : BindObject) :
    Loading KeepsRows (fun _ => True) stmt o where
  lasts _ _ _ _ := trivial
  write w _ _ := Library.KeepsRows.refl w.library
  report w pos size _ := Does.require (Library.KeepsRows.setDataSize o.name pos size w.library)
    fun _ => Library.KeepsRows.of_eq rfl rfl
  note w _ := Library.KeepsRows.refl w.library

end BindObject

namespace Statement
variable {t : Terms} {hs : Multiset Nat} {s : Statement} {w w' v u : World} {id : Nat} {n : Node} {stmt : Address}
  {d : StatementData} {R : World → World → Prop}

/-- The release of the resultsets of a statement releases wrappers only: the native library keeps the resultsets. -/
lemma keepsChain_releaseResultsets (hw : w.Forest) (how : Owns t w) (hid : s.handle.node = some id) (hl : w.Live id n)
    (hknown : (w.library.stmts.get? n.native).isSome) : Does (KeepsChain id) s.releaseResultsets w := by
  obtain ⟨heq, hb⟩ := Wrapper.releaseChildren_eq hw hid hl fun n => decide (n.kind = .resultset)
  have hspares := how.chain_retireAll hw hl hknown hb
  have hself : id ∉ (n.children.filter fun c => (w.nodes.get? c).any fun n => decide (n.kind = .resultset)).flatMap
      w.postorder := hw.not_mem_postorder hl.1 fun _ => List.mem_of_mem_filter
  have hlive := (hw.live_retireAll hb).mpr ⟨hself, n, hl, rfl⟩
  unfold Does
  rw [releaseResultsets, run_modifyGet, heq]
  intro m hm
  obtain rfl := hl.unique hm
  obtain ⟨hstmts, hrsets⟩ := hspares.chain _ hlive
  exact ⟨_, hlive, rfl, rfl, by rw [Library.listed, Library.listed, hstmts], hrsets⟩

lemma keepsChain_load (hw : Sound hs w) (how : Owns t w) (hid : s.handle.node = some id) (hl : w.Live id n)
    (hknown : (w.library.stmts.get? n.native).isSome) : Does (KeepsChain id) s.load w := by
  refine Does.live fun i m hi hm => ?_
  obtain rfl := Option.some.inj (hid.symm.trans hi)
  obtain rfl := hl.unique hm
  refine (keepsChain_releaseResultsets hw.forest how hid hl hknown).bind fun _ v _ hkeeps => ?_
  obtain ⟨m, hm, hnative, -⟩ := hkeeps n hl
  refine Does.dataOf hid hm fun d _ => Does.requireStatus fun _ => ?_
  have hquiet : Does Quiet (d.binds.push n.native d.arraySize) v := d.binds.quiet_push ⟨id, m, hm, hnative⟩ d.arraySize
  have hrows : Does KeepsRows (d.binds.push n.native d.arraySize) v := BindObject.does_exchangeAll
    (fun _ _ _ _ => trivial) (fun o _ _ hw => (BindObject.keepsRows_loading n.native o).push hw d.arraySize) trivial
  have hpush : Does (KeepsChain id) (d.binds.push n.native d.arraySize) v := .of_rows hquiet.nodes hrows
  exact hpush.dressed.seq fun _ _ _ => Does.pure _

/-! ### Wrapped resultsets -/

/-- The load of a statement releases its resultsets before it can fail for another reason than the handle. -/
lemma cleared_load (hw : Sound hs w) (hid : s.handle.node = some id) :
    Ends s.load w fun _ w' => ∀ m, w'.Live id m → w'.Cleared m := by
  by_cases hl : ∃ n, w.Live id n
  · obtain ⟨n, hl⟩ := hl
    obtain ⟨count, v, ids, hrelease, hv, hc⟩ := cleared_releaseResultsets hw.forest hid hl
    have hrest : Does Still (do
        let d ← s.data
        requireStatus d .prepared "execute"
        Act.dressed (ClientError.withSql d.sql) (d.binds.push n.native d.arraySize)
        pure (n.native, d)) v := by
      refine Does.data fun _ _ d _ _ _ => Does.requireStatus fun _ => ?_
      have hquiet : Does Quiet (d.binds.push n.native d.arraySize) v := d.binds.quiet_push ⟨id, _, hv, rfl⟩ d.arraySize
      exact (hquiet.mono fun _ => Still.of_quiet).dressed.seq fun _ _ _ => Does.pure _
    refine Ends.liveOf hid hl (Ends.after hrelease (hrest.cleared fun m hm => ?_))
    obtain rfl := hv.unique hm
    exact hc
  · refine Ends.live (fun i n hi hn => ?_) fun _ m hm => absurd ⟨m, hm⟩ hl
    obtain rfl := Option.some.inj (hid.symm.trans hi)
    exact absurd ⟨n, hn⟩ hl

lemma still_unload (hid : s.handle.node = some id) (hl : u.Live id n) (d : StatementData) :
    Does Still (s.unload n.native d) u := by
  have htune : Does Still (update (s.putData { d with status := .executed })) u := by
    change Still u (s.putData { d with status := .executed } u)
    rw [putData_of_live hid hl]
    exact .keeping _ _ _
  refine htune.bind fun _ v hput _ => ?_
  obtain ⟨-, rfl⟩ := Prod.mk.inj hput
  have hv : World.Live (s.putData { d with status := .executed } u) id (n.keeping { d with status := .executed }) := by
    rw [putData_of_live hid hl]
    exact hl.keeping _
  have hback : Does Quiet (do
      Act.dressed (ClientError.withSql d.sql) (d.binds.pull n.native d.arraySize)
      Act.note (.executed n.native d.arraySize)) (s.putData { d with status := .executed } u) :=
    (d.binds.quiet_pull ⟨id, _, hv, rfl⟩ d.arraySize).dressed.seq fun _ _ _ => Quiet.note _
  exact hback.mono fun _ => Still.of_quiet

/-- What comes after the load wraps no resultset. -/
lemma still_execution (hid : s.handle.node = some id) (hl : v.Live id n) (d : StatementData) : Does Still (do
    let done ← modifyGet (runNative n.native d.arraySize)
    Act.orFail (fun e => (e.withSql d.sql).withHandle n.native) done
    s.unload n.native d) v := by
  unfold Does
  rw [run_bind, run_modifyGet, runNative]
  rcases Library.execute n.native d.arraySize v.memory v.library with ⟨_ | ⟨results, memory⟩, l⟩
  · exact .of_eq rfl rfl rfl
  · have hnative : Still v { v with library := l, memory := memory, log := v.log ++ results.map .hook } :=
      .of_eq rfl rfl rfl
    have hu : World.Live { v with library := l, memory := memory, log := v.log ++ results.map .hook } id n := hl
    have hunload : Still { v with library := l, memory := memory, log := v.log ++ results.map .hook } _ :=
      s.still_unload hid hu d
    exact hnative.trans hunload

/-- After an execution no resultset is wrapped below the node of a statement, whatever became of the execution. -/
lemma cleared_executePrepared (hw : Sound hs w) (hid : s.handle.node = some id) :
    Ends s.executePrepared w fun _ w' => ∀ m, w'.Live id m → w'.Cleared m := by
  refine Ends.bind (fun p v hload => ?_) fun e v hload => (cleared_load hw hid).elim hload
  obtain ⟨stmt, d⟩ := p
  obtain ⟨i, n, hi, hl, rfl, -⟩ := load_spec hw hload
  have hrest : Still v _ := s.still_execution hi hl d
  exact hrest.cleared ((cleared_load hw hid).elim hload)

lemma cleared_execute (hw : Sound hs w) (hid : s.handle.node = some id) (sql : String) :
    Ends (s.execute sql) w fun _ w' => ∀ m, w'.Live id m → w'.Cleared m :=
  Ends.bind (fun _ _ hr => s.cleared_executePrepared
      (((s.course_prepare (t := ⟨false, false⟩) .prepare sql).rel hr).sound hw) hid)
    fun _ _ hr => (cleared_prepare hw.forest hid .prepare sql).elim hr

/-! ### Executions -/

/-- What an execution begins with: the statement is loaded and executed natively. -/
def attempt (s : Statement) : Act (Option Unit) := do
  let (stmt, d) ← s.load
  modifyGet (runNative stmt d.arraySize)

/-- An execution of the statement gets so far that the native statement is executed. -/
def Launches (s : Statement) (w : World) : Prop := (s.attempt.run w).1 = .ok (some ())

instance (s : Statement) (w : World) : Decidable (s.Launches w) :=
  inferInstanceAs (Decidable ((s.attempt.run w).1 = .ok (some ())))

/-- An execution that is broken off fails, and has not done more than load the statement and call the library. -/
theorem ends_aborted [Std.Refl R] [IsTrans World R] (hno : ¬s.Launches w) (hload : Does R s.load w)
    (hfail : ∀ v stmt iters l, Library.execute stmt iters v.memory v.library = (none, l) →
      R v { v with library := l.lastError.2 }) :
    Ends s.executePrepared w fun r w' => (∃ e, r = .error e) ∧ R w w' := by
  unfold Does at hload
  unfold Launches attempt at hno
  rw [run_bind] at hno
  unfold Ends executePrepared
  rw [run_bind]
  rcases hrun : s.load.run w with ⟨e | ⟨stmt, d⟩, v⟩ <;> rw [hrun] at hno hload
  · exact ⟨⟨e, rfl⟩, hload⟩
  · dsimp only at hno ⊢
    rw [run_modifyGet] at hno
    rw [run_bind, run_modifyGet]
    rcases hnative : runNative stmt d.arraySize v with ⟨_ | _, u⟩ <;> rw [hnative] at hno
    · obtain ⟨l, he, rfl⟩ := error_of_runNative hnative
      exact ⟨⟨_, rfl⟩, trans_of R hload (hfail v stmt _ l he)⟩
    · exact absurd rfl hno

/-- What is kept beside a statement stays as it is, and the native library keeps its chain. -/
theorem keepsChain_aborted (hw : Sound hs w) (how : Owns t w) (hid : s.handle.node = some id) (hl : w.Live id n)
    (hknown : (w.library.stmts.get? n.native).isSome) (hno : ¬s.Launches w) :
    Ends s.executePrepared w fun r w' => (∃ e, r = .error e) ∧ KeepsChain id w w' :=
  ends_aborted hno (keepsChain_load hw how hid hl hknown) fun _ _ _ _ he =>
    .of_rows rfl ((Library.KeepsRows.execute he).trans (.of_eq rfl rfl))

/-- The data of all statements stay as they are. -/
theorem alters_aborted (id : Nat) (hno : ¬s.Launches w) :
    Ends s.executePrepared w fun r w' => (∃ e, r = .error e) ∧ Alters Anyhow id Eq w w' :=
  ends_aborted hno s.alters_load fun _ _ _ _ _ => .of_eq rfl rfl rfl

/-- Nothing is recorded as executed. -/
theorem aside_aborted (hno : ¬s.Launches w) :
    Ends s.executePrepared w fun r w' => (∃ e, r = .error e) ∧ Aside w w' :=
  ends_aborted hno (s.aside_load w) fun v _ _ l he => by
    have hlibrary : l.executions = v.library.executions := Library.execute_none he
    exact ⟨rfl, hlibrary⟩

lemma aside_prepare (mode : PrepareMode) (sql : String) : Does Aside (s.prepare mode sql) w := by
  refine Does.live fun _ n _ _ => (s.aside_releaseResultsets w).seq fun _ v _ => Does.data fun _ _ d _ _ _ => ?_
  have hput : ∀ (e : StatementData) u, Aside u (s.putData e u) := fun e u => by
    obtain ⟨hlibrary, -, hvars⟩ := s.putData_aside e u
    exact ⟨hvars, congrArg Library.executions hlibrary⟩
  have hclose : Does Aside (update fun w => (s.putData (d.reset sql) w).freeBuffers d.binds.buffers) v :=
    (hput _ v).trans ⟨rfl, rfl⟩
  refine hclose.seq fun _ u _ => ?_
  have hprepare : Does Aside (Act.require (fun e => (e.withSql (some sql)).withHandle n.native)
      (Library.prepare n.native sql mode)) u :=
    Does.require ⟨rfl, Library.executions_prepare n.native sql mode u.library⟩ fun _ => ⟨rfl, rfl⟩
  refine hprepare.seq fun _ u' _ => ?_
  have hrenew : Does Aside (update (s.putData { d.reset sql with status := .ofMode mode })) u' := hput _ u'
  exact hrenew.seq fun _ _ _ => ⟨rfl, rfl⟩

end Statement

namespace StatementCall
variable {s : Statement} {w : World} {k : StatementCall}

/-- A call executes the statement. -/
def Executes : StatementCall → Prop
  | execute _ | executePrepared => True
  | _ => False

/-- A call that executes the statement gets so far that the native statement is executed. -/
def Launches (s : Statement) (w : World) : StatementCall → Prop
  | execute sql => ((s.prepare .prepare sql).run w).1 = .ok () ∧ s.Launches ((s.prepare .prepare sql).run w).2
  | executePrepared => s.Launches w
  | _ => False

/-- A call that does not get so far fails, and nothing is recorded as executed. -/
theorem ends_aborted (hk : k.Executes) (hno : ¬k.Launches s w) :
    Ends (k.perform s) w fun r w' => (∃ e, r = .error e) ∧ Aside w w' := by
  cases k with
  | execute sql =>
    refine Ends.unsuccessful (Ends.bind (fun _ v hr => ?_) fun e v hr => ⟨⟨e, rfl⟩, (s.aside_prepare _ sql).rel hr⟩)
    have haside := (s.aside_prepare .prepare sql).rel hr
    have hno' : ¬s.Launches v := fun hv => hno ⟨congrArg Prod.fst hr, by rw [hr]; exact hv⟩
    obtain ⟨he, hrest⟩ := s.aside_aborted hno'
    exact ⟨he, haside.trans hrest⟩
  | executePrepared => exact Ends.unsuccessful (s.aside_aborted hno)
  | _ => exact hk.elim

end StatementCall
end DbClient
