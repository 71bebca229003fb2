import DbClient.Proofs.Application.InputLaw
import DbClient.Proofs.Application.OutputLaw
import DbClient.Proofs.Frame.Application
import DbClient.Proofs.Transfer.Phases

/-! What executions leave that fail. On the way into the buffers, and in the native library, nothing has happened to the
variables and to the statement; on the way out of the buffers the statement has been executed, and the variables have
arrived up to the one that fails. -/
namespace DbClient
open Act World

namespace Statement

/-- What an execution leaves that has failed on the way of an object into its buffer. -/
structure PushFailure (s : Statement) (d : StatementData) (o : BindObject) (w w' : World) : Prop where
  /-- The error tells the text and the name of the object. -/
  error : ∃ source text, d.sql = some text ∧
    s.executePrepared.run w = (.error (.native source ⟨some text, some o.name, none, none⟩), w')
  /-- Nothing has been executed, nor was the native library asked to. -/
  idle : w'.library.executions = w.library.executions ∧
    ∃ cs, w'.calls = w.calls ++ cs ∧ ∀ c ∈ cs, c ≠ (some .execute, s.handle.native w)
  vars : w'.vars = w.vars
  data : s.data? w' = some d

/-- What an execution leaves that the native library has refused. -/
structure NativeFailure (s : Statement) (d : StatementData) (w w' : World) : Prop where
  /-- The error tells the text and the address of the statement. -/
  error : ∃ source text, d.sql = some text ∧ s.executePrepared.run w =
    (.error (.native source ⟨some text, none, none, some (s.handle.native w).number⟩), w')
  idle : w'.library.executions = w.library.executions
  vars : w'.vars = w.vars
  data : s.data? w' = some d

/-- What an execution leaves that has failed on the way of an object out of its buffer. -/
structure PullFailure (s : Statement) (d : StatementData) (before : List BindObject) (o : BindObject)
    (after : List BindObject) (w w' : World) : Prop where
  /-- An error of the native library tells the text and the name of the object, any other that bytes stand for no
  value. -/
  error : ∃ e text, d.sql = some text ∧ s.executePrepared.run w = (.error e, w') ∧
    ((∃ source, e = .native source ⟨some text, some o.name, none, none⟩) ∨ ∃ ty, e = .conversion ty)
  /-- One execution has been recorded. -/
  recorded : ∃ x, w'.library.executions = w.library.executions ++ [x] ∧ x.Reports d w.vars
  data : s.data? w' = some { d with status := .executed }
  /-- The variables of the objects before have what has been delivered from the buffers, -/
  delivered : ∃ v u x, s.load.run w = (.ok (s.handle.native w, d), v) ∧
    runNative (s.handle.native w) d.arraySize v = (some (), u) ∧
    BindObject.Delivers before (s.handle.native w) d.arraySize u x ∧
    ∀ p ∈ before, w'.vars.get? p.var = x.vars.get? p.var
  /-- and those of the objects behind what they had. -/
  untouched : ∀ p ∈ after, w'.vars.get? p.var = w.vars.get? p.var

end Statement

namespace Application
variable {a : Application} {s : Statement} {d : StatementData} {before after : List BindObject} {o : BindObject}
  {w : World}

/-- The way into the buffers leaves the variables and the statement alone. -/
lemma Reachable.pushFailure (h : Reachable ⟨false, true⟩ a) (hs : .statement s ∈ a.items)
    (hd : s.data? a.world = some d) (hrank : Status.prepared.rank ≤ d.status.rank)
    (hfails : s.FailsIn d a.world (.push before o after) w) : s.PushFailure d o a.world w := by
  have hw := h.fit.sound.forest
  obtain ⟨id, n, hid, hdata, -, howned⟩ := (h.seated rfl).data hs hd
  obtain ⟨st, -, ⟨sql, mode, -, hsql⟩, -⟩ := (h.bindings rfl).agree id n d hdata hrank
  have hstmt : s.handle.native a.world = n.native := Wrapper.native_of_live hid hdata.1
  cases hfails with
  | @push _ _ _ count v u _ e hobjects hrelease hfails =>
    rw [hstmt] at hfails
    have hpush : (d.binds.push n.native d.arraySize).run v = (.error (e.withBind o.name), w) := by
      rw [BindsHolder.push, hobjects]
      exact hfails.run after
    obtain ⟨source, rfl⟩ := o.throws_push n.native d.arraySize _ _ _ hfails.fails
    obtain ⟨count', v', ids, hr, hv, -⟩ := Statement.cleared_releaseResultsets hw hid hdata.1
    obtain ⟨-, rfl⟩ := Prod.mk.inj (hr.symm.trans hrelease)
    have haside : Aside a.world v' := (s.aside_releaseResultsets a.world).rel hrelease
    have hloads : Loads n.native d.binds.objects v' w :=
      Does.rel (BindObject.loads_exchangeAll d.arraySize d.binds.objects v') hpush
    have hquiet : Quiet v' w := (d.binds.quiet_push ⟨id, _, hv, rfl⟩ d.arraySize).rel hpush
    refine {
      error := ⟨source, sql, hsql, ?_⟩
      idle := ⟨hloads.library.executions.trans haside.executions, ?_⟩
      vars := hloads.vars.trans haside.vars
      data := Statement.data?_eq_some.mpr ⟨id, n.without ids, hid, hquiet.live ▸ hv, hdata.2⟩ }
    · rw [Statement.run_of_push hw hid hdata hrank hrelease hpush, hsql]
      rfl
    · obtain ⟨cs, hcs, hforeign⟩ := Statement.calls_releaseResultsets hw (h.owns rfl) hid hdata.1 howned hrelease
      obtain ⟨cs', hcs', hsizes⟩ := (d.binds.measures_push n.native d.arraySize v').rel hpush
      refine ⟨cs ++ cs', by rw [hcs', hcs, List.append_assoc], fun c hc => ?_⟩
      rintro rfl
      rcases List.mem_append.mp hc with hc | hc
      · exact hforeign _ hc hstmt
      · cases hsizes _ hc

/-- A native execution that fails leaves them alone as well. -/
lemma Reachable.nativeFailure (h : Reachable ⟨false, true⟩ a) (hs : .statement s ∈ a.items)
    (hd : s.data? a.world = some d) (hrank : Status.prepared.rank ≤ d.status.rank)
    (hfails : s.FailsIn d a.world .native w) : s.NativeFailure d a.world w := by
  obtain ⟨id, n, hid, hdata, -, -⟩ := (h.seated rfl).data hs hd
  obtain ⟨st, -, ⟨sql, mode, -, hsql⟩, -⟩ := (h.bindings rfl).agree id n d hdata hrank
  cases hfails with
  | @native v l hload hfails =>
    have haside : Aside a.world v := (s.aside_load a.world).rel hload
    obtain ⟨i, m, hi, hm, -, hx, -⟩ := Statement.load_spec h.fit.sound hload
    refine {
      error := ⟨l.lastError.1, sql, hsql, ?_⟩
      idle := (Library.execute_none hfails).trans haside.executions
      vars := haside.vars
      data := Statement.data?_eq_some.mpr ⟨i, m, hi, hm, hx⟩ }
    rw [Statement.run_of_native hload hfails, hsql]
    rfl

/-- Objects with variables of their own do not share them. -/
lemma apart_of_nodup {os : List BindObject} (hos : os = before ++ o :: after)
    (hvars : (os.map fun o => o.var).Nodup) : (∀ p ∈ before, o.var ≠ p.var) ∧ (∀ p ∈ after, o.var ≠ p.var) ∧
      ∀ p ∈ before, ∀ q ∈ after, p.var ≠ q.var := by
  subst hos
  rw [List.map_append, List.map_cons, List.nodup_append] at hvars
  obtain ⟨-, hlater, hdisjoint⟩ := hvars
  refine ⟨fun p hp => ?_, fun p hp he => ?_, fun p hp q hq => ?_⟩
  · exact (hdisjoint _ (List.mem_map_of_mem hp) _ List.mem_cons_self).symm
  · exact (List.nodup_cons.mp hlater).1 (he ▸ List.mem_map_of_mem hp)
  · exact hdisjoint _ (List.mem_map_of_mem hp) _ (List.mem_cons_of_mem _ (List.mem_map_of_mem hq))

/-- The way out of the buffers has delivered what comes before the object where it fails. -/
lemma Reachable.pullFailure (h : Reachable ⟨false, true⟩ a) (hs : .statement s ∈ a.items)
    (hd : s.data? a.world = some d) (hrank : Status.prepared.rank ≤ d.status.rank)
    (hvars : (d.binds.objects.map fun o => o.var).Nodup) (hfails : s.FailsIn d a.world (.pull before o after) w) :
    s.PullFailure d before o after a.world w := by
  obtain ⟨id, n, hid, hdata, -, -⟩ := (h.seated rfl).data hs hd
  obtain ⟨st, -, ⟨sql, mode, -, hsql⟩, -⟩ := (h.bindings rfl).agree id n d hdata hrank
  cases hfails with
  | @pull _ _ _ v u x _ e hobjects hload hexecuted hfails =>
    obtain ⟨hbefore, hafter, hapart⟩ := apart_of_nodup hobjects hvars
    have haside : Aside a.world v := (s.aside_load a.world).rel hload
    obtain ⟨i, m, hi, hm, hnative, hx, -⟩ := Statement.load_spec h.fit.sound hload
    obtain ⟨results, memory, l, he, rfl⟩ := Statement.ok_of_runNative hexecuted
    have hu : World.Live { v with library := l, memory := memory, log := v.log ++ results.map .hook } i m := hm
    have hlive := hu.keeping { d with status := .executed }
    obtain ⟨hlibrary, hmemory, hhost⟩ := s.putData_aside { d with status := .executed }
      { v with library := l, memory := memory, log := v.log ++ results.map .hook }
    rw [← Statement.putData_of_live hi hu] at hlive
    have hpull : (d.binds.pull (s.handle.native a.world) d.arraySize).run (s.putData { d with status := .executed }
        { v with library := l, memory := memory, log := v.log ++ results.map .hook }) =
          (.error (e.withBind o.name), w) := by
      rw [BindsHolder.pull, hobjects]
      exact hfails.run after
    have hquiet := (d.binds.quiet_pull ⟨i, _, hlive, hnative⟩ d.arraySize).rel hpull
    have hunloads : Unloads (s.handle.native a.world) d.arraySize d.binds.objects _ w :=
      Does.rel (BindObject.unloads_exchangeAll d.arraySize d.binds.objects _) hpull
    have hlast : Unloads (s.handle.native a.world) d.arraySize [o] x w :=
      Does.rel ((BindObject.unloads_unloading (List.mem_singleton_self o)).pull trivial) hfails.fails
    have hdelivers := BindObject.delivers_of_exchangeAll hfails.before
    have hkeeps : ∀ z, o.var ≠ z → w.vars.get? z = x.vars.get? z := fun z hz =>
      hlast.others z fun p hp _ => List.mem_singleton.mp hp ▸ hz
    obtain ⟨record, hrecord, hreports⟩ := h.reports rfl hload he
    refine {
      error := ⟨_, sql, hsql, Statement.run_of_pull hload hexecuted hpull, ?_⟩
      recorded := ⟨record, ?_, hreports⟩
      data := Statement.data?_eq_some.mpr ⟨i, m.keeping { d with status := .executed }, hi, hquiet.live ▸ hlive, rfl⟩
      delivered := ⟨v, _, x, hload, hexecuted, hdelivers.congr hmemory.symm hlibrary.symm hhost.symm rfl,
        fun p hp => hkeeps p.var (hbefore p hp)⟩
      untouched := fun p hp => ?_ }
    · obtain ⟨source, rfl⟩ | ⟨ty, rfl⟩ := o.throws_pull _ _ _ _ _ hfails.fails
      · rw [hsql]
        exact .inl ⟨source, rfl⟩
      · exact .inr ⟨ty, rfl⟩
    · rw [hunloads.library.executions, hlibrary]
      exact hrecord
    · rw [hkeeps p.var (hafter p hp), hdelivers.others p.var fun q hq _ => hapart q hq p hp, hhost]
      exact congrArg (fun t => t.get? p.var) haside.vars

/-- What becomes of statements that have been prepared when their executions fail. -/
structure FailedExecutionLaw (a : Application) : Prop where
  /-- An execution that fails has failed in one of the phases, -/
  phase : ∀ s d e w, .statement s ∈ a.items → s.data? a.world = some d → Status.prepared.rank ≤ d.status.rank →
    s.executePrepared.run a.world = (.error e, w) → ∃ phase, s.FailsIn d a.world phase w
  /-- on the way of an object into its buffer, -/
  push : ∀ s d before o after w, .statement s ∈ a.items → s.data? a.world = some d →
    Status.prepared.rank ≤ d.status.rank → s.FailsIn d a.world (.push before o after) w → s.PushFailure d o a.world w
  /-- in the native library, -/
  native : ∀ s d w, .statement s ∈ a.items → s.data? a.world = some d → Status.prepared.rank ≤ d.status.rank →
    s.FailsIn d a.world .native w → s.NativeFailure d a.world w
  /-- or on the way of an object out of its buffer, where the objects have variables of their own. -/
  pull : ∀ s d before o after w, .statement s ∈ a.items → s.data? a.world = some d →
    Status.prepared.rank ≤ d.status.rank → (d.binds.objects.map fun o => o.var).Nodup →
    s.FailsIn d a.world (.pull before o after) w → s.PullFailure d before o after a.world w

theorem Reachable.failedExecutionLaw (h : Reachable ⟨false, true⟩ a) : FailedExecutionLaw a where
  phase s d e w hs hd hrank hrun := by
    obtain ⟨id, n, hid, hdata, -, -⟩ := (h.seated rfl).data hs hd
    exact Statement.exists_failsIn h.fit.sound.forest hid hdata hrank hrun
  push _ _ _ _ _ _ hs hd hrank := h.pushFailure hs hd hrank
  native _ _ _ hs hd hrank := h.nativeFailure hs hd hrank
  pull _ _ _ _ _ _ hs hd hrank hvars := h.pullFailure hs hd hrank hvars

/-- Three variables come out, and the question for the length of the second one is made to fail: the first one has what
the hook wrote, the others have what they had. -/
theorem failedExecutionLaw_after_second :
    let s : Statement := ⟨0, ⟨0, ⟨some 1⟩⟩, ⟨some 2⟩⟩
    let a := play [.createEnvironment default,
      .environment ⟨0, ⟨some 0⟩⟩ (.connect (.ofPassword "db" "user" "word")),
      .connection ⟨0, ⟨some 1⟩⟩ (.prepare "q"), .newVar (.single .bool false), .newVar (.single .string "old"),
      .newVar (.single .bool false), .statement s (.bind (.name "x") 0 .output .regular 0),
      .statement s (.bind (.name "y") 1 .output .regular 3), .statement s (.bind (.name "z") 2 .output .regular 0),
      .library (.onExecute "q" [.write "x" 1 ⟨.bool, true⟩, .write "z" 1 ⟨.bool, true⟩]),
      .library (.failNext .dataSize (.single 22165 "given index is out of range"))] start
    let p := s.executePrepared.run a.world
    FailedExecutionLaw a ∧
      p.1 = .error (.native (.single 22165 "given index is out of range") ⟨some "q", some "y", none, none⟩) ∧
      p.2.vars.rows.values.map HostVar.text = ["HostVar(true)", "HostVar(\"old\")", "HostVar(false)"] ∧
      p.2.library.executions.length = 1 ∧ (s.data? p.2).map StatementData.status = some .executed := by
  refine ⟨Reachable.failedExecutionLaw (runs_play ?_), by decide +kernel, by decide +kernel, by decide +kernel,
    by decide +kernel⟩
  exact ⟨trivial, by decide +kernel, trivial, by decide +kernel, trivial, by decide +kernel, trivial,
    by decide +kernel, trivial, by decide +kernel, trivial, by decide +kernel, trivial, by decide +kernel, trivial,
    by decide +kernel, trivial, by decide +kernel, trivial, by decide +kernel, nofun, by decide +kernel, trivial⟩

end Application
end DbClient
