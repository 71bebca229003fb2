import DbClient.Proofs.Application.CapacityLaw
import DbClient.Proofs.Transfer.Execution
import DbClient.Proofs.Transfer.Sizes

/-! The law of input in any application: what the native library records of an execution is what the variables hold
when the statement is executed, whatever they held when they were bound. -/
namespace DbClient

/-- An execution is recorded with the text and the array size of the statement, with the names that are bound, and
with what the variables hold. -/
structure Execution.Reports (e : Execution) (d : StatementData) (vars : Table HostVar) : Prop where
  sql : d.sql = some e.sql
  iters : e.iters = d.arraySize
  names : (e.binds.map Prod.fst).Perm d.binds.names ∧ d.binds.names.Nodup
  data : ∀ o ∈ d.binds.objects, ∃ cells, (o.name, cells) ∈ e.binds ∧ cells.length = o.elemCount ∧
    o.Arrives d.arraySize vars fun i => cells[i]?

namespace Application
open World Library Act
variable {t : Terms} {a : Application} {s : Statement} {stmt : Address} {d : StatementData} {v : World}

/-- What is loaded is the statement as it was, and the library finds in its variables what they hold. -/
theorem Reachable.arrives (ht : t.foreign = false) (h : Reachable t a) (hr : s.load.run a.world = (.ok (stmt, d), v)) :
    s.data? a.world = some d ∧
      ∀ o ∈ d.binds.objects, o.Arrives d.arraySize a.world.vars fun i => v.seen? stmt o.name (i + 1) := by
  obtain ⟨id, n, ids, count, u, hid, hl, rfl, hx, hrank, hrelease, hlu, -, hpush⟩ :=
    Statement.load_steps h.fit.sound.forest hr
  refine ⟨Statement.data?_eq_some.mpr ⟨id, n, hid, hl, hx⟩, ?_⟩
  have hpath : Path t (a.held, a.world) (a.held, u) := s.course_releaseResultsets.rel hrelease h.fit.sound
  have hw : Bindings u := Path.bindings ht hpath h.fit.sound (h.owns ht) (h.bindings ht)
  have hd : u.HasData id (n.without ids) d := ⟨hlu, hx⟩
  have hshaped : d.Shaped := h.allData StatementData.Shaped.lasting ht id n d ⟨hl, hx⟩
  have hstocked := hw.stocked id _ d hd
  have haside : Aside a.world u := (s.aside_releaseResultsets a.world).rel hrelease
  rw [← haside.vars]
  exact BindObject.arrives_of_exchangeAll hstocked.names hstocked.buffers
    (fun o ho => ⟨there_of_stocked hstocked ho, hw.entry hd hrank ho⟩) hshaped hpush

/-- An execution that goes through is recorded as it should be. -/
theorem Reachable.reports (ht : t.foreign = false) (h : Reachable t a)
    (hr : s.load.run a.world = (.ok (stmt, d), v)) {results : List HookResult} {memory : Memory} {l : Library}
    (he : Library.execute stmt d.arraySize v.memory v.library = (some (results, memory), l)) :
    ∃ e, l.executions = a.world.library.executions ++ [e] ∧ e.Reports d a.world.vars := by
  obtain ⟨st, sql, mode, hst, hp, hrec⟩ := execute_some he
  obtain ⟨hw, id, n, -, hl, rfl, hx, hrank⟩ := h.loaded ht hr
  obtain ⟨st', hst', hag⟩ := hw.agree id n d ⟨hl, hx⟩ hrank
  obtain rfl := Option.some.inj (hst.symm.trans hst')
  have hstocked := hw.stocked id n d ⟨hl, hx⟩
  have haside : Aside a.world v := (s.aside_load a.world).rel hr
  refine ⟨_, by rw [hrec, haside.executions], ?_, rfl, ⟨?_, hstocked.names⟩, fun o ho => ?_⟩
  · obtain ⟨sql', mode', hp', hsql⟩ := hag.text
    obtain ⟨rfl, -⟩ := Prod.mk.inj (Option.some.inj (hp.symm.trans hp'))
    exact hsql
  · rw [List.map_map]
    exact hag.keys
  · obtain ⟨b, hb, hframe⟩ := hag.entry hstocked.names ho
    obtain ⟨bytes, hbytes, -⟩ := there_of_stocked hstocked ho
    obtain ⟨-, -, h3, -, -, h6⟩ := describes hframe
    obtain ⟨hlen, hget⟩ := Bound.contents_eq (b := b) (h6 ▸ hbytes)
    refine ⟨b.contents v.memory, List.mem_map.mpr ⟨(o.name, b), Assoc.mem_of_find hb, rfl⟩, hlen.trans h3, ?_⟩
    refine ((h.arrives ht hr).2 o ho).congr fun i hi => ?_
    rw [hget i (h3 ▸ hi), seen?, bound?, hst, Option.bind_some, hb, Option.bind_some]

/-- What an execution is recorded with. -/
structure InputLaw (w : World) : Prop where
  /-- To execute a statement records one execution, or none. -/
  recorded : ∀ (s : Statement) r w', s.executePrepared.run w = (r, w') →
    w'.library.executions = w.library.executions ∨ ∃ d e, s.data? w = some d ∧
      w'.library.executions = w.library.executions ++ [e] ∧ e.Reports d w.vars
  /-- One is recorded whenever the variables have travelled into their buffers and the native execution is not made
  to fail, -/
  reached : ∀ (s : Statement) stmt d v r w', s.load.run w = (.ok (stmt, d), v) →
    v.library.failures.get? .execute = none → s.executePrepared.run w = (r, w') →
    w'.library.executions ≠ w.library.executions
  /-- and so whenever all has gone well. -/
  done : ∀ (s : Statement) w', s.executePrepared.run w = (.ok (), w') →
    w'.library.executions ≠ w.library.executions
  /-- The values are cut to the sizes that were declared in the binds. -/
  declared : ∀ (s : Statement) index var direction kind size v w', w.vars.get? var = some v →
    (s.bind index var direction kind size).run w = (.ok (), w') → ∃ d o, s.data? w' = some d ∧
      o ∈ d.binds.objects ∧ o.name = index.text ∧ o.var = var ∧ o.direction = direction ∧ o.LaysOut size v

/-- An execution that is recorded has gone through natively. -/
lemma Reachable.recorded (ht : t.foreign = false) (h : Reachable t a) (hr : s.load.run a.world = (.ok (stmt, d), v))
    {r : Except ClientError Unit} {w' : World} (hrun : s.executePrepared.run a.world = (r, w')) :
    (∃ e, w'.library.executions = a.world.library.executions ++ [e] ∧ e.Reports d a.world.vars) ∨
      w'.library.executions = a.world.library.executions ∧ (v.library.failures.get? .execute).isSome ∧
        ∃ e, r = .error e := by
  have haside : Aside a.world v := (s.aside_load a.world).rel hr
  obtain ⟨u, hn, hback⟩ | ⟨u, hn, hsame, herror⟩ := Statement.run_executePrepared hr hrun
  · left
    obtain ⟨results, memory, l, he, rfl⟩ := Statement.ok_of_runNative hn
    obtain ⟨e, hrec, hreports⟩ := h.reports ht hr he
    have hunload := (s.unloads_unload stmt d _).rel hback
    exact ⟨e, hunload.library.executions.trans hrec, hreports⟩
  · obtain ⟨l, he, rfl⟩ := Statement.error_of_runNative hn
    refine .inr ⟨?_, ?_, herror⟩
    · rw [hsame, ← haside.executions]
      exact execute_none he
    · -- the statement has been prepared on both sides, so that nothing else stands against it
      by_contra hnone
      obtain ⟨hw, id, n, -, hl, rfl, hx, hrank⟩ := h.loaded ht hr
      obtain ⟨st, hst, ⟨sql, mode, hp, -⟩, -⟩ := hw.agree id n d ⟨hl, hx⟩ hrank
      have hgo : ∃ results memory l', Library.execute n.native d.arraySize v.memory v.library =
          (some (results, memory), l') := execute_goes hst hp (by simpa using hnone)
      simp [he] at hgo

/-- The law of input holds whenever an application is between two operations, and any primitive may fail at any
time. -/
theorem Reachable.inputLaw (h : Reachable ⟨false, true⟩ a) : InputLaw a.world := by
  refine ⟨fun s r w' hrun => ?_, fun s stmt d v r w' hr hfree hrun => ?_, fun s w' hrun => ?_,
    fun s index var direction kind size v w' hv hrun => Statement.laysOut_of_bind hv hrun⟩
  · rcases hload : s.load.run a.world with ⟨e | ⟨stmt, d⟩, v⟩
    · -- nothing is executed
      left
      unfold Statement.executePrepared at hrun
      rw [run_bind, hload] at hrun
      obtain ⟨-, rfl⟩ := Prod.mk.inj hrun
      exact ((s.aside_load a.world).rel hload).executions
    · obtain ⟨e, hrec, hreports⟩ | ⟨hsame, -⟩ := h.recorded rfl hload hrun
      · exact .inr ⟨d, e, (h.arrives rfl hload).1, hrec, hreports⟩
      · exact .inl hsame
  · obtain ⟨e, hrec, -⟩ | ⟨-, hfail, -⟩ := h.recorded rfl hr hrun
    · simp [hrec]
    · simp [hfree] at hfail
  · obtain ⟨⟨stmt, d⟩, v, hload, -⟩ := ok_of_bind hrun
    obtain ⟨e, hrec, -⟩ | ⟨-, -, e, he⟩ := h.recorded rfl hload hrun
    · simp [hrec]
    · cases he

/-- All variables change after they have been bound, and the vector grows. What is recorded are the new values: a
text is cut before the character that does not fit, the elements are cut to two bytes, and the third one has no
room. -/
theorem inputLaw_after_changes :
    let s : Statement := ⟨0, ⟨0, ⟨some 1⟩⟩, ⟨some 2⟩⟩
    let w := (play [.createEnvironment default,
      .environment ⟨0, ⟨some 0⟩⟩ (.connect (.ofPassword "db" "user" "word")),
      .connection ⟨0, ⟨some 1⟩⟩ (.prepare "q"), .newVar (.single .bool false), .newVar (.single .string ""),
      .newVar (.vector .raw [[1], [2]]), .statement s (.bind (.name "b") 0 .both .regular 0),
      .statement s (.bind (.name "s") 1 .input .regular 2), .statement s (.bind (.name "r") 2 .input .table 2),
      .setVar 0 (.single .bool true), .setVar 1 (.single .string "aé"),
      .setVar 2 (.vector .raw [[3, 4, 5], [6], [7]])] start).world
    InputLaw w ∧ (s.executePrepared.run w).2.library.executions =
      [⟨"q", 1, [("b", [[1, 0, 0, 0]]), ("s", [[97]]), ("r", [[3, 4], [6]])]⟩] := by
  refine ⟨Reachable.inputLaw (runs_play ?_), by decide +kernel⟩
  exact ⟨trivial, by decide +kernel, trivial, by decide +kernel, trivial, by decide +kernel, trivial,
    by decide +kernel, trivial, by decide +kernel, trivial, by decide +kernel, trivial, by decide +kernel, trivial,
    by decide +kernel, trivial, by decide +kernel, trivial, by decide +kernel, trivial, by decide +kernel, trivial,
    by decide +kernel, trivial⟩

end Application
end DbClient
