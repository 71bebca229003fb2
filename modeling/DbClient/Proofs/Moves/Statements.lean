import DbClient.Proofs.Moves.Environments

/-! The operations on statements as paths of moves. Preparation and execution begin with the release of all
resultsets; what comes after it works on a node below which none is wrapped. -/
namespace DbClient
open Act World

variable {β : Type} {t : Terms} {hs : Multiset Nat} {w w' : World} {id : Nat} {n : Node} {s : Statement}
  {R : World → World → Prop}

/-! ### Data beside the handle -/

/-- A node does not lie below its children. -/
lemma World.Forest.not_mem_postorder (hw : w.Forest) (hn : w.nodes.get? id = some n) {cs : List Nat}
    (hcs : ∀ c ∈ cs, c ∈ n.children) : id ∉ cs.flatMap w.postorder := by
  intro hid
  obtain ⟨c, hc, hic⟩ := List.mem_flatMap.mp hid
  obtain ⟨hlt, m, hm, -⟩ := hw.child hn (hcs c hc)
  exact absurd (hw.le_of_below ((hw.mem_postorder hm).mp hic)) (Nat.not_le_of_lt hlt)

lemma World.Live.keeping (hl : w.Live id n) (d : StatementData) :
    (w.modifyNode id (Node.keeping d)).Live id (n.keeping d) := by
  refine ⟨?_, hl.2⟩
  rw [nodes_modifyNode, Table.get?_modify, if_pos rfl, hl.1]
  rfl

namespace Statement

/-- What a statement holds: its connection and its own handle. -/
def points (s : Statement) : Multiset Nat := s.conn.handle.points + s.handle.points

lemma data?_eq_some {d : StatementData} :
    s.data? w = some d ↔ ∃ id n, s.handle.node = some id ∧ w.Live id n ∧ n.Keeps d := by
  unfold data? Wrapper.extra?
  cases hl : s.handle.liveNode? w with
  | none =>
    simp only [Option.bind_none, reduceCtorEq, false_iff]
    rintro ⟨id, n, hid, hn, -⟩
    rw [Wrapper.liveNode?_eq_some.mpr ⟨hid, hn⟩] at hl
    cases hl
  | some p =>
    obtain ⟨id, n⟩ := p
    obtain ⟨hid, hn⟩ := Wrapper.liveNode?_eq_some.mp hl
    rw [Option.bind_some]
    constructor
    · intro h
      split at h
      · rename_i d' hx
        exact ⟨id, n, hid, hn, hx.trans (congrArg (fun d => some (Extra.statement d)) (Option.some.inj h))⟩
      · cases h
    · rintro ⟨id', n', hid', hn', hx⟩
      obtain rfl := Option.some.inj (hid.symm.trans hid')
      obtain rfl := hn.unique hn'
      simp only [show n.extra = some (.statement d) from hx]

/-- What a statement with a live node has beside its handle is kept with that node. -/
lemma keeps_of_data? {id : Nat} {n : Node} {d : StatementData} (hid : s.handle.node = some id) (hl : w.Live id n)
    (hd : s.data? w = some d) : n.Keeps d := by
  obtain ⟨i, m, hi, hm, hx⟩ := data?_eq_some.mp hd
  obtain rfl := Option.some.inj (hid.symm.trans hi)
  obtain rfl := hl.unique hm
  exact hx

lemma ok_of_data {d : StatementData} (h : s.data.run w = (.ok d, w')) : w' = w ∧ s.data? w = some d := by
  unfold data at h
  rw [run_bind, run_get] at h
  dsimp only at h
  split at h
  · rename_i d' hd
    obtain ⟨h1, h2⟩ := Prod.mk.inj h
    exact ⟨h2.symm, hd.trans (congrArg some (Except.ok.inj h1))⟩
  · cases h

lemma ok_of_requireStatus {d : StatementData} {needed : Status} {operation : String}
    (h : (requireStatus d needed operation).run w = (.ok (), w')) : w' = w ∧ needed.rank ≤ d.status.rank := by
  unfold requireStatus at h
  split at h
  · cases h
  · rename_i hle
    exact ⟨(Prod.mk.inj h).2.symm, Nat.le_of_not_lt hle⟩

/-- An executed statement has been prepared. -/
lemma executed_rank : Status.prepared.rank ≤ Status.executed.rank := by decide

lemma putData_of_live (hid : s.handle.node = some id) (hl : w.Live id n) (d : StatementData) :
    s.putData d w = w.modifyNode id (Node.keeping d) := by
  simp only [putData, Wrapper.liveNode?_eq_some.mpr ⟨hid, hl⟩]
  rfl

end Statement

namespace Act

/-- An operation that begins by asking for the data of a statement. -/
lemma Does.data [Std.Refl R] {f : StatementData → Act β}
    (hf : ∀ id n d, s.handle.node = some id → w.Live id n → n.Keeps d → Does R (f d) w) :
    Does R (s.data >>= f) w := by
  unfold Statement.data
  rw [bind_assoc]
  apply Does.get
  split
  · rename_i d hd
    obtain ⟨id, n, hid, hl, hx⟩ := Statement.data?_eq_some.mp hd
    rw [pure_bind]
    exact hf id n d hid hl hx
  · exact Does.throw_bind _

/-- An operation that begins by asking for the data beside a known node. -/
lemma Does.dataOf [Std.Refl R] {f : StatementData → Act β} (hid : s.handle.node = some id) (hl : w.Live id n)
    (hf : ∀ d, n.Keeps d → Does R (f d) w) : Does R (s.data >>= f) w :=
  Does.data fun id' n' d hid' hl' hx => by
    obtain rfl := Option.some.inj (hid.symm.trans hid')
    obtain rfl := hl.unique hl'
    exact hf d hx

/-- An operation that goes on only from a stage. -/
lemma Does.requireStatus [Std.Refl R] {d : StatementData} {needed : Status} {operation : String}
    {f : Unit → Act β} (hf : needed.rank ≤ d.status.rank → Does R (f ()) w) :
    Does R (Statement.requireStatus d needed operation >>= f) w := by
  unfold Statement.requireStatus
  split
  · exact Does.throw_bind _
  · rename_i h
    rw [pure_bind]
    exact hf (Nat.le_of_not_lt h)

/-- An operation that begins by making an object, whose lengths have to fit. -/
lemma Does.make [Std.Refl R] {plan : BindPlan} {f : BindObject → Act β}
    (hf : plan.Fits → R w ((f (BindObject.place plan w).1).run (BindObject.place plan w).2).2) :
    Does R (BindObject.make plan >>= f) w := by
  unfold BindObject.make
  split
  · rename_i hfit
    exact hf hfit
  · exact Does.throw_bind _

/-- What has to hold of a course may be shown of sound worlds. -/
lemma Does.sound {a : Act β} (h : Sound hs w → Does (Course t hs) a w) : Does (Course t hs) a w := fun hw =>
  h hw hw

end Act

namespace Statement

/-! ### Release of resultsets -/

/-- After the release of its resultsets a statement has no wrapped one; its node has lost only children. -/
lemma cleared_releaseResultsets (hw : w.Forest) (hid : s.handle.node = some id) (hl : w.Live id n) :
    ∃ count w' ids, s.releaseResultsets.run w = (.ok count, w') ∧ w'.Live id (n.without ids) ∧
      w'.Cleared (n.without ids) := by
  obtain ⟨heq, hb⟩ := Wrapper.releaseChildren_eq hw hid hl fun n => decide (n.kind = .resultset)
  have hmem : ∀ c, (c ∈ n.children.filter fun c => (w.nodes.get? c).any fun n => decide (n.kind = .resultset)) ↔
      c ∈ n.children ∧ (w.nodes.get? c).any fun n => decide (n.kind = .resultset) := fun _ => List.mem_filter
  generalize (n.children.filter fun c => (w.nodes.get? c).any fun n => decide (n.kind = .resultset)) = cs
    at heq hb hmem
  have hself : id ∉ cs.flatMap w.postorder := hw.not_mem_postorder hl.1 fun c hc => ((hmem c).mp hc).1
  refine ⟨cs.length, World.retireAll (cs.flatMap w.postorder) w, cs.flatMap w.postorder, ?_,
    (hw.live_retireAll hb).mpr ⟨hself, n, hl, rfl⟩, fun c hc m hm hk => ?_⟩
  · rw [releaseResultsets, run_modifyGet, heq]
  · obtain ⟨hc, -⟩ := List.mem_filter.mp hc
    obtain ⟨hout, m', hm', rfl⟩ := (hw.live_retireAll hb).mp hm
    have hcs : c ∈ cs := by
      rw [hmem, hm'.1]
      exact ⟨hc, decide_eq_true hk⟩
    exact hout (List.mem_flatMap.mpr ⟨c, hcs, hw.self_mem_postorder hm'⟩)

lemma course_releaseResultsets (s : Statement) : Does (Course t hs) s.releaseResultsets w :=
  Course.releaseChildren s.handle _ w

/-- What comes after the release of the resultsets. -/
lemma releasing {f : Nat → Act β} (hw : Sound hs w) (hid : s.handle.node = some id) (hl : w.Live id n)
    (hf : ∀ count w' ids, Sound hs w' → w'.Live id (n.without ids) → w'.Cleared (n.without ids) →
      Does (Course t hs) (f count) w') : Does (Course t hs) (s.releaseResultsets >>= f) w := by
  obtain ⟨count, w', ids, hr, hl', hc⟩ := cleared_releaseResultsets hw.forest hid hl
  refine s.course_releaseResultsets.bind fun count' v hrun hcourse => ?_
  obtain ⟨h1, rfl⟩ := Prod.mk.inj (hr.symm.trans hrun)
  obtain rfl := Except.ok.inj h1
  exact hf count w' ids (hcourse.sound hw) hl' hc

/-! ### Preparation -/

lemma course_prepare (s : Statement) (mode : PrepareMode) (sql : String) :
    Does (Course t hs) (s.prepare mode sql) w := by
  refine Does.sound fun hw => Does.live fun id n hid hl => releasing hw hid hl fun _ v ids _ hv hc => ?_
  refine Does.dataOf hid hv fun d hx => ?_
  dsimp only
  -- all that was bound goes
  have hclose : Does (Course t hs) (update fun w => (s.putData (d.reset sql) w).freeBuffers d.binds.buffers) v := by
    change Course t hs v ((s.putData (d.reset sql) v).freeBuffers d.binds.buffers)
    rw [putData_of_live hid hv]
    exact Course.move (.close sql hv hx)
  refine hclose.bind fun _ v' hrun _ => ?_
  obtain ⟨-, rfl⟩ := Prod.mk.inj hrun
  dsimp only
  rw [putData_of_live hid hv]
  have hv' : World.Live ((v.modifyNode id (Node.keeping (d.reset sql))).freeBuffers d.binds.buffers) id
      ((n.without ids).keeping (d.reset sql)) := hv.keeping _
  have hc' : World.Cleared ((v.modifyNode id (Node.keeping (d.reset sql))).freeBuffers d.binds.buffers)
      ((n.without ids).keeping (d.reset sql)) := (Still.keeping (d.reset sql) id v).clears hc rfl
  -- the text is prepared, or refused
  generalize (v.modifyNode id (Node.keeping (d.reset sql))).freeBuffers d.binds.buffers = u at hv' hc'
  unfold Does
  rw [run_bind, run_require]
  rcases hp : Library.prepare n.native sql mode u.library with ⟨_ | x, l⟩
  · exact Course.quiet (Quiet.ofLibrary ((Library.Quiet.prepare ⟨id, _, hv', rfl⟩ hp).trans (.lastError l)))
  · have hl' : World.Live { u with library := l } id ((n.without ids).keeping (d.reset sql)) := hv'
    dsimp only
    rw [run_bind, run_update]
    dsimp only
    rw [putData_of_live hid hl']
    have hm : Move t hs u hs (World.modifyNode id (Node.keeping { d.reset sql with status := .ofMode mode })
        { u with library := l }) := .renew hv' rfl hc' hp
    exact (Course.move hm).trans (Course.ofQuiet (Quiet.note _))

/-! ### Execution -/

lemma course_load (s : Statement) : Does (Course t hs) s.load w := by
  refine Does.sound fun hw => Does.live fun id n hid hl => releasing hw hid hl fun _ v ids _ hv _ => ?_
  refine Does.dataOf hid hv fun d _ => Does.requireStatus fun _ => ?_
  have hpush : Does (Course t hs) (dressed (ClientError.withSql d.sql) (d.binds.push n.native d.arraySize)) v :=
    Course.ofQuiet (d.binds.quiet_push ⟨id, _, hv, rfl⟩ d.arraySize).dressed
  exact hpush.seq fun _ _ _ => Does.pure _

/-- The load of a statement: its resultsets go, and then the variables of the statement as it was travel into the
buffers. -/
lemma load_steps {stmt : Address} {d : StatementData} (hw : w.Forest) (h : s.load.run w = (.ok (stmt, d), w')) :
    ∃ id n ids count v, s.handle.node = some id ∧ w.Live id n ∧ n.native = stmt ∧ n.Keeps d ∧
      Status.prepared.rank ≤ d.status.rank ∧ s.releaseResultsets.run w = (.ok count, v) ∧
      v.Live id (n.without ids) ∧ v.Cleared (n.without ids) ∧ (d.binds.push stmt d.arraySize).run v = (.ok (), w') := by
  obtain ⟨a, _, h1, hafter⟩ := ok_of_bind h
  obtain ⟨rfl, id, n, hid, hl, rfl⟩ := ok_of_live h1
  obtain ⟨count, v, h2, hrest⟩ := ok_of_bind hafter
  obtain ⟨count', v', ids, hr, hv, hc⟩ := cleared_releaseResultsets hw hid hl
  obtain ⟨-, rfl⟩ := Prod.mk.inj (hr.symm.trans h2)
  obtain ⟨d', v, h3, hgate⟩ := ok_of_bind hrest
  obtain ⟨rfl, hd⟩ := ok_of_data h3
  have hx : (n.without ids).Keeps d' := keeps_of_data? hid hv hd
  obtain ⟨_, v, h4, hpush⟩ := ok_of_bind hgate
  obtain ⟨rfl, hrank⟩ := ok_of_requireStatus h4
  obtain ⟨_, u, h5, hend⟩ := ok_of_bind hpush
  obtain ⟨h6, rfl⟩ := Prod.mk.inj hend
  obtain ⟨rfl, rfl⟩ := Prod.mk.inj (Except.ok.inj h6)
  exact ⟨id, n, ids, count, v, hid, hl, rfl, hx, hrank, h2, hv, hc, ok_of_dressed h5⟩

/-- A statement that is loaded has been prepared, and none of its resultsets is wrapped. -/
lemma load_spec {stmt : Address} {d : StatementData} (hw : Sound hs w) (h : s.load.run w = (.ok (stmt, d), w')) :
    ∃ id n, s.handle.node = some id ∧ w'.Live id n ∧ n.native = stmt ∧ n.Keeps d ∧ w'.Cleared n ∧
      Status.prepared.rank ≤ d.status.rank := by
  obtain ⟨id, n, ids, count, v, hid, -, rfl, hx, hrank, -, hv, hc, hpush⟩ := load_steps hw.forest h
  have hq : Quiet v w' := (d.binds.quiet_push ⟨id, _, hv, rfl⟩ d.arraySize).rel hpush
  refine ⟨id, n.without ids, hid, ?_, rfl, hx, ?_, hrank⟩
  · rw [hq.live]
    exact hv
  · unfold Cleared
    rw [hq.live]
    exact hc

lemma course_executePrepared (s : Statement) : Does (Course t hs) s.executePrepared w := by
  refine Does.sound fun hw => s.course_load.bind fun p v hload _ => ?_
  obtain ⟨stmt, d⟩ := p
  obtain ⟨id, n, hid, hl, rfl, hx, hc, hrank⟩ := load_spec hw hload
  dsimp only
  unfold Does
  rw [run_bind, run_modifyGet, runNative]
  rcases he : Library.execute n.native d.arraySize v.memory v.library with ⟨_ | ⟨results, memory⟩, l⟩
  · have hq : Quiet v { v with library := l.lastError.2 } :=
      Quiet.ofLibrary ((Library.Quiet.execute ⟨id, n, hl, rfl⟩ he).trans (.lastError l))
    exact Course.quiet hq
  · have hm : Move t hs v hs { v with library := l, memory := memory, log := v.log ++ results.map .hook } :=
      .execute hl hc he
    apply (Course.move hm).trans
    dsimp only
    rw [orFail, pure_bind]
    have hl' : World.Live { v with library := l, memory := memory, log := v.log ++ results.map .hook } id n := hl
    generalize ({ v with library := l, memory := memory, log := v.log ++ results.map .hook } : World) = u at hl'
    -- the stage is reached, and the buffers travel back
    have htune : Does (Course t hs) (update (s.putData { d with status := .executed })) u := by
      change Course t hs u (s.putData { d with status := .executed } u)
      rw [putData_of_live hid hl']
      exact Course.move (.tune hl' hx rfl rfl ⟨fun _ => hrank, fun _ => executed_rank⟩ (.inl ⟨rfl, rfl⟩))
    have hback : ∀ v', v'.Live id (n.keeping { d with status := .executed }) → Does (Course t hs) (do
        Act.dressed (ClientError.withSql d.sql) (d.binds.pull n.native d.arraySize)
        Act.note (.executed n.native d.arraySize)) v' := fun v' hv' =>
      Course.ofQuiet ((d.binds.quiet_pull ⟨id, _, hv', rfl⟩ d.arraySize).dressed.seq fun _ _ _ => Quiet.note _)
    refine htune.bind fun _ v' hrun _ => hback v' ?_
    obtain ⟨-, rfl⟩ := Prod.mk.inj hrun
    rw [putData_of_live hid hl']
    exact hl'.keeping _

lemma course_execute (s : Statement) (sql : String) : Does (Course t hs) (s.execute sql) w :=
  (s.course_prepare .prepare sql).seq fun _ _ _ => s.course_executePrepared

end Statement
end DbClient
