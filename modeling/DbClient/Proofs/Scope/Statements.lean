import DbClient.Proofs.Scope.Exchange
import DbClient.Proofs.Preparation
import DbClient.Proofs.Transfer.Execution

/-! The operations on a statement and on its resultsets as steps. They work on the node of the statement and on what is
below it, and only an execution writes variables: those that are bound. -/
namespace DbClient
open Act World

variable {β : Type} {S : Scope} {o w w' : World} {id : Nat} {n : Node}

/-! ### Resultsets -/

namespace Resultset
variable {rs : Resultset}

lemma tells_fetch (hn : ∀ id, rs.handle.node = some id → S.node id) (op : FetchOp) : Tells S w (rs.fetch op) w := by
  refine Tells.live (.refl w) fun id n hid hl => Tells.native_bind ?_
  have hcall : StepsWithin S w { w with library := ((Invocation.fetch n.native op).run w.library).2 } :=
    .work (hn id hid) hl (.call _ rfl trivial)
  have hrun : Invocation.gave (Library.fetch n.native op w.library) =
      (Invocation.fetch n.native op).run w.library := rfl
  rcases hf : Library.fetch n.native op w.library with ⟨_ | x, l⟩ <;> rw [hf] at hrun
  · obtain rfl : ((Invocation.fetch n.native op).run w.library).2 = l := (congrArg Prod.snd hrun).symm
    apply Tells.native_bind
    unfold Library.takeError
    dsimp only
    cases he : ((Invocation.fetch n.native op).run w.library).2.error with
    | none => exact Tells.pure (hcall.trans (.single .forget)) false
    | some e =>
      have hnone : ((Invocation.fetch n.native op).run w.library).1 = false := (congrArg Prod.fst hrun).symm
      -- the row is asked for after the error has been taken
      have hrow : ∀ rs, Invocation.fetch n.native op ≠ .currentRow rs := fun _ h => nomatch h
      refine Tells.native_bind (Tells.get (Tells.failed (Invocation.records hrow hnone he) hcall (by simp) ?_))
      refine StepsWithin.trans (.single .forget) ?_
      exact .work (hn id hid) (n := n) hl (.call (.currentRow n.native) rfl trivial)
  · obtain rfl : ((Invocation.fetch n.native op).run w.library).2 = l := (congrArg Prod.snd hrun).symm
    exact Tells.pure hcall true

lemma tells_scrolling {operation : String} {α : Type} {f : Unit → Act α} (hf : Tells S w (f ()) w) :
    Tells S w (rs.scrolling operation >>= f) w := by
  unfold scrolling
  split
  · exact Tells.throw_bind (.refl w) rfl
  · exact hf

/-- The number of the current row is there as long as the cursor is. -/
lemma tells_currentRow (hn : ∀ id, rs.handle.node = some id → S.node id)
    (hc : ∀ id n, rs.handle.node = some id → w.Live id n → (w.library.rsets.get? n.native).isSome) :
    Tells S w rs.currentRow w := by
  refine Tells.live (.refl w) fun id n hid hl => Tells.get ?_
  obtain ⟨c, hcursor⟩ := Option.isSome_iff_exists.mp (hc id n hid hl)
  refine Tells.of_ok (x := c.currentRow) ?_ (.work (hn id hid) hl (.call (.currentRow n.native) rfl trivial))
  rw [run_require, Library.currentRow, hcursor]
  rfl

lemma tells_columnCount (hn : ∀ id, rs.handle.node = some id → S.node id) : Tells S w rs.columnCount w :=
  Tells.live (.refl w) fun id n hid hl => Tells.get <|
    Tells.call (.columnCount n.native) (fun _ => rfl) (fun e => by simp) (fun h => h) (hn id hid) hl rfl trivial

lemma tells_column (hn : ∀ id, rs.handle.node = some id → S.node id) (index : Nat) : Tells S w (rs.column index) w := by
  refine (tells_columnCount hn).seq fun count w _ _ => ?_
  dsimp only
  split
  · exact Tells.throw_bind (.refl w) rfl
  · refine Tells.live (.refl w) fun id n hid hl => Tells.native_bind ?_
    have hcall : StepsWithin S w { w with library := ((Invocation.columnValue n.native index).run w.library).2 } :=
      .work (hn id hid) hl (.call _ rfl trivial)
    have hrun : Invocation.gave (Library.columnValue n.native index w.library) =
      (Invocation.columnValue n.native index).run w.library := rfl
    rcases hf : Library.columnValue n.native index w.library with ⟨_ | x, l⟩ <;> rw [hf] at hrun
    · obtain rfl : ((Invocation.columnValue n.native index).run w.library).2 = l := (congrArg Prod.snd hrun).symm
      have hnone : ((Invocation.columnValue n.native index).run w.library).1 = false := (congrArg Prod.fst hrun).symm
      have hseeks : ¬(Invocation.columnValue n.native index).Seeks := fun h => h
      obtain ⟨e, he, hrecords⟩ := Invocation.records_of_failed hseeks hnone
      apply Tells.native_bind
      unfold Library.lastError
      rw [he]
      refine Tells.native_bind (Tells.get (Tells.failed hrecords hcall (by simp) ?_))
      refine StepsWithin.trans (.single .forget) ?_
      exact .work (hn id hid) (n := n) hl (.call (.currentRow n.native) rfl trivial)
    · obtain rfl : ((Invocation.columnValue n.native index).run w.library).2 = l := (congrArg Prod.snd hrun).symm
      exact Tells.pure hcall x

lemma tells_get (hn : ∀ id, rs.handle.node = some id → S.node id) (index : Nat) (r : Request) :
    Tells S w (rs.get index r) w := by
  refine (tells_column hn index).seq fun v w _ _ => Tells.ofExcept (.refl w) fun x hx => ?_
  cases ha : v.answer r with
  | ok a =>
    rw [ha] at hx
    cases hx
  | error ty =>
    rw [ha] at hx
    obtain rfl := Except.error.inj hx
    rfl

end Resultset

namespace Statement
variable {s : Statement}

/-! ### Preparation and execution -/

lemma tells_releaseResultsets (hS : ∀ id, s.handle.node = some id → S.Covers id w) :
    Tells S w s.releaseResultsets w :=
  Tells.modifyGet _ (StepsWithin.releaseChildren _ fun id n c hid hl hc => (hS id hid).below w (.refl w) n c hl hc)

/-- What comes after the release of the resultsets. -/
lemma tells_releasing {f : Nat → Act β} (hw : Standing w) (hS : S.Covers id w) (hid : s.handle.node = some id)
    (hl : w.Live id n) (hf : ∀ count v ids, StepsWithin S w v → v.Live id (n.without ids) → v.Cleared (n.without ids) →
      Tells S v (f count) v) : Tells S w (s.releaseResultsets >>= f) w := by
  have hS' : ∀ i, s.handle.node = some i → S.Covers i w := fun i hi => by
    obtain rfl := Option.some.inj (hid.symm.trans hi)
    exact hS
  obtain ⟨count, v, ids, hr, hlv, hc⟩ := cleared_releaseResultsets hw.forest hid hl
  refine (tells_releaseResultsets hS').seq fun count' v' hrun hd => ?_
  obtain ⟨hcount, rfl⟩ := Prod.mk.inj (hr.symm.trans hrun)
  obtain rfl := Except.ok.inj hcount
  exact hf count v ids hd hlv hc

theorem tells_prepare (hw : Standing w) (hS : ∀ id, s.handle.node = some id → S.Covers id w ∧ S.text id)
    (mode : PrepareMode) (sql : String) : Tells S w (s.prepare mode sql) w := by
  refine Tells.live (.refl w) fun id n hid hl => ?_
  obtain ⟨hcovers, htext⟩ := hS id hid
  refine tells_releasing hw hcovers hid hl fun _ v ids _ hv hc => Tells.dataOf (.refl v) hid hv fun d hx => ?_
  dsimp only
  -- all that was bound goes
  have hclose : StepsWithin S v ((s.putData (d.reset sql) v).freeBuffers d.binds.buffers) := by
    rw [putData_of_live hid hv]
    exact .work hcovers.node hv (.close htext sql hx)
  have hv' : World.Live ((s.putData (d.reset sql) v).freeBuffers d.binds.buffers) id
      ((n.without ids).keeping (d.reset sql)) := by
    rw [putData_of_live hid hv]
    exact hv.keeping _
  have hc' : World.Cleared ((s.putData (d.reset sql) v).freeBuffers d.binds.buffers)
      ((n.without ids).keeping (d.reset sql)) := by
    rw [putData_of_live hid hv]
    exact (Still.keeping (d.reset sql) id v).clears hc rfl
  refine Tells.update_bind hclose ?_
  generalize (s.putData (d.reset sql) v).freeBuffers d.binds.buffers = u at hv' hc'
  -- the text is prepared, or refused
  refine Tells.require_then (.prepare n.native sql mode) (fun _ => rfl) (fun e => by simp) (fun h => h)
    (fun hfail => .work hcovers.node hv' (.call _ rfl hfail)) fun x l hp => ?_
  have hl' : World.Live { u with library := l } id ((n.without ids).keeping (d.reset sql)) := hv'
  refine Tells.update_bind ?_ (Tells.note _ (.refl _))
  rw [putData_of_live hid hl']
  exact .work hcovers.node hv' (.renew rfl hc' hp)

/-- The data of a statement are there when a preparation succeeds, and nothing is bound to it then. -/
lemma empty_of_prepare {mode : PrepareMode} {sql : String} {m : Node} {e : StatementData} (hw : w.Forest)
    (hid : s.handle.node = some id) (hr : (s.prepare mode sql).run w = (.ok (), w')) (he : w'.HasData id m e) :
    e.binds.objects = [] := by
  obtain ⟨_, _, h1, h2⟩ := ok_of_bind hr
  obtain ⟨rfl, i, n, hi, hl, rfl⟩ := ok_of_live h1
  obtain rfl := Option.some.inj (hid.symm.trans hi)
  obtain ⟨count, v, h3, h4⟩ := ok_of_bind h2
  obtain ⟨count', v', ids, hrel, hv, -⟩ := cleared_releaseResultsets hw hid hl
  obtain ⟨-, rfl⟩ := Prod.mk.inj (hrel.symm.trans h3)
  obtain ⟨d, _, h5, -⟩ := ok_of_bind h4
  have hx : n.Keeps d := (keeps_of_data? hid hv (ok_of_data h5).2 : (n.without ids).Keeps d)
  obtain ⟨status, ⟨ids', hlive, -⟩, -⟩ := (s.ends_prepare hw hid hl hx mode sql).elim hr
  obtain rfl := hlive.unique he.1
  obtain rfl : _ = e := Extra.statement.inj (Option.some.inj he.2)
  rfl

lemma tells_load (hw : Standing w) (hS : ∀ id, s.handle.node = some id → S.Covers id w) : Tells S w s.load w := by
  refine Tells.live (.refl w) fun id n hid hl => ?_
  refine tells_releasing hw (hS id hid) hid hl fun _ v ids _ hv _ => Tells.dataOf (.refl v) hid hv fun d hx =>
    Tells.requireStatus (.refl v) fun _ => ?_
  have hpush := (BindsHolder.tells_push (hS id hid).node hv hx d.arraySize).dressed (ClientError.source?_withSql d.sql)
  exact hpush.seq fun _ u _ _ => Tells.pure (.refl u) _

/-- The variables that an execution may write are those that are bound. -/
def Writes (S : Scope) (s : Statement) (w : World) : Prop :=
  ∀ id n d, s.handle.node = some id → w.HasData id n d → ∀ o ∈ d.binds.objects, S.var o.var

theorem tells_executePrepared (hw : Standing w) (hS : ∀ id, s.handle.node = some id → S.Covers id w)
    (hv : s.Writes S w) : Tells S w s.executePrepared w := by
  refine (tells_load hw hS).seq fun p v hload _ => ?_
  obtain ⟨stmt, d⟩ := p
  obtain ⟨hs, hsound⟩ := hw.sound
  obtain ⟨i, m, -, -, -, hi, hm, -, hkept, -⟩ := load_steps hw.forest hload
  obtain ⟨id, n, hid, hl, rfl, hx, hc, hrank⟩ := load_spec hsound hload
  have hn := (hS id hid).node
  have hvars : ∀ o ∈ d.binds.objects, S.var o.var := hv i m d hi ⟨hm, hkept⟩
  dsimp only
  rcases he : Library.execute n.native d.arraySize v.memory v.library with ⟨_ | ⟨results, memory⟩, l⟩
  · have hnone : ((Invocation.execute n.native d.arraySize v.memory).run v.library).1 = false := by
      change (Invocation.gave (Library.execute n.native d.arraySize v.memory v.library)).1 = false
      rw [he]
      rfl
    have hlib : ((Invocation.execute n.native d.arraySize v.memory).run v.library).2 = l := congrArg Prod.snd he
    have hseeks : ¬(Invocation.execute n.native d.arraySize v.memory).Seeks := fun h => h
    obtain ⟨e, herror, hrecords⟩ := Invocation.records_of_failed hseeks hnone
    have hcall : StepsWithin S v
        { v with library := ((Invocation.execute n.native d.arraySize v.memory).run v.library).2 } :=
      .work hn hl (.call _ rfl hnone)
    rw [hlib] at herror
    refine Tells.of_run (b := throw ((ClientError.withSql d.sql (.ofNative e)).withHandle n.native))
      (v := { v with library := { l with error := none } }) ?_ (Tells.failed hrecords hcall (by simp) ?_)
    · rw [run_bind, run_modifyGet, runNative, he]
      dsimp only
      rw [orFail, run_bind, run_bind, run_native, Library.lastError, herror]
      rfl
    · rw [hlib]
      exact .single .forget
  · have hdone : StepsWithin S v { v with library := l, memory := memory, log := v.log ++ results.map .hook } :=
      .work hn hl (.execute hx hrank hc he)
    have hl' : World.Live { v with library := l, memory := memory, log := v.log ++ results.map .hook } id n := hl
    refine Tells.of_run (b := s.unload n.native d)
      (v := { v with library := l, memory := memory, log := v.log ++ results.map .hook }) ?_ (Tells.onward hdone ?_)
    · rw [run_bind, run_modifyGet, runNative, he]
      rfl
    generalize ({ v with library := l, memory := memory, log := v.log ++ results.map .hook } : World) = u at hl'
    -- the stage is reached, and the buffers travel back
    have htune : StepsWithin S u (s.putData { d with status := .executed } u) := by
      rw [putData_of_live hid hl']
      exact .work hn hl' (.tune hx rfl rfl ⟨fun _ => hrank, fun _ => executed_rank⟩ ⟨rfl, rfl⟩ rfl)
    have hlu : (s.putData { d with status := .executed } u).Live id (n.keeping { d with status := .executed }) := by
      rw [putData_of_live hid hl']
      exact hl'.keeping _
    have hpull := BindsHolder.tells_pull (d := { d with status := .executed }) hn hvars hlu rfl d.arraySize
    exact Tells.update_bind htune
      ((hpull.dressed (ClientError.source?_withSql d.sql)).seq fun _ x _ _ => Tells.note _ (.refl x))

theorem tells_execute (hw : Standing w) (hS : ∀ id, s.handle.node = some id → S.Covers id w ∧ S.text id)
    (sql : String) : Tells S w (s.execute sql) w := by
  refine (tells_prepare hw hS .prepare sql).seq fun _ v hr hd => ?_
  refine tells_executePrepared (hw.within hd) (fun id hid => (hS id hid).1.onward hd) fun id m e hid he p hp => ?_
  rw [empty_of_prepare hw.forest hid hr he] at hp
  exact absurd hp List.not_mem_nil

end Statement
end DbClient
