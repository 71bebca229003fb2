import DbClient.Proofs.Alike.Application

/-! The law of current input in any application: what the elements that take part in an execution send depends on what
the variables hold then, and on nothing that they held when the statement was executed before. -/
namespace DbClient
open Act World

/-! ### What is sent -/

namespace Host
variable {ty : ValueType} {m n : Nat} {x : Host ty} {bs bs' : List UInt8}

/-- Only one front is the longest that fits. -/
lemma Fits.unique (h : Fits n ty x bs) (h' : Fits n ty x bs') : bs' = bs := by
  cases ty with
  | string =>
    obtain ⟨p, hp, rfl, hn, hmax⟩ := h
    obtain ⟨q, hq, rfl, hn', hmax'⟩ := h'
    rw [(hmax q hq hn').eq_of_length_le (hmax' p hp hn).length_le]
  | raw =>
    obtain ⟨hp, hn, hmax⟩ := h
    obtain ⟨hq, hn', hmax'⟩ := h'
    exact (hmax _ hq hn').eq_of_length_le (hmax' _ hp hn).length_le
  | _ => exact Eq.trans h' h.symm

/-- What fits goes by the length of a cell alone. -/
lemma Fits.of_stride (h : Fits n ty x bs) (hs : ty.stride m = ty.stride n) : Fits m ty x bs := by
  cases hv : ty.isVariable with
  | true =>
    rw [ValueType.stride_of_variable hv, ValueType.stride_of_variable hv] at hs
    obtain rfl : m = n := by omega
    exact h
  | false => cases ty <;> first | exact h | cases hv

end Host

/-- The number of values that a variable holds. -/
def HostVar.length : HostVar → Nat
  | single .. => 1
  | vector _ xs => xs.length

/-- A variable that holds the same arrives as the same in all elements that take part. -/
theorem BindPlan.Arrives.same {o : BindPlan} {arraySize : Nat} {vars vars' : Table HostVar}
    {found found' : Nat → Option (List UInt8)} {v : HostVar} {i : Nat} (h : o.Arrives arraySize vars found)
    (h' : o.Arrives arraySize vars' found') (hs : o.Suits vars) (hin : o.direction.isIn = true)
    (hv : vars.get? o.var = some v) (hv' : vars'.get? o.var = some v) (hi : o.Covers arraySize v.length i) :
    found' i = found i := by
  cases hform : o.form with
  | cell =>
    obtain ⟨x, hx⟩ := hs.single (by simp [hform])
    obtain rfl : i = 0 := by simpa [Covers, hform] using hi
    rw [hx] at hv
    rw [h.cell x hform hx (.inl hin), h'.cell x hform (hv'.trans hv.symm) (.inl hin)]
  | text size =>
    obtain ⟨x, hx⟩ := hs.single (by simp [hform])
    obtain rfl : i = 0 := by simpa [Covers, hform] using hi
    rw [hx] at hv
    obtain ⟨bs, hbs, hfit⟩ := h.text size x hform hx hin
    obtain ⟨bs', hbs', hfit'⟩ := h'.text size x hform (hv'.trans hv.symm) hin
    rw [hbs, hbs', hfit.unique hfit']
  | vector kind elemSize elemCount =>
    obtain ⟨xs, hxs⟩ := hs.vector hform
    obtain rfl := Option.some.inj (hxs.symm.trans hv)
    obtain ⟨size, hsize, hall⟩ := h.vector kind elemSize elemCount xs hform hxs (.inl hin)
    obtain ⟨size', hsize', hall'⟩ := h'.vector kind elemSize elemCount xs hform hv' (.inl hin)
    have hlen : i < xs.length := by
      unfold Covers at hi
      rw [hform] at hi
      exact hi.2.1
    obtain ⟨bs, hbs, hfit⟩ := hall i xs[i] (List.getElem?_eq_getElem hlen) hi
    obtain ⟨bs', hbs', hfit'⟩ := hall' i xs[i] (List.getElem?_eq_getElem hlen) hi
    rw [hbs, hbs', hfit.unique (hfit'.of_stride (hsize.symm.trans hsize'))]

/-- Two executions of a statement are recorded alike: with the same text, array and names, and of a variable that goes
in and holds the same both times with the same data. -/
structure Execution.Agrees (d : StatementData) (vars vars' : Table HostVar) (e e' : Execution) : Prop where
  sql : e'.sql = e.sql
  iters : e'.iters = e.iters
  names : (e'.binds.map Prod.fst).Perm (e.binds.map Prod.fst)
  /-- Each element that takes part is found the same, and so is the whole variable if all do. -/
  data : ∀ o ∈ d.binds.objects, o.direction.isIn = true → ∀ v, vars.get? o.var = some v →
    vars'.get? o.var = some v → ∃ cells cells', (o.name, cells) ∈ e.binds ∧ (o.name, cells') ∈ e'.binds ∧
      cells'.length = cells.length ∧ (∀ i, o.Covers d.arraySize v.length i → cells'[i]? = cells[i]?) ∧
        (o.count d.arraySize v.length = o.elemCount → cells' = cells)

lemma Execution.Reports.agrees {d : StatementData} {vars vars' : Table HostVar} {e e' : Execution}
    (h : e.Reports d vars) (h' : e'.Reports d vars') (hs : ∀ o ∈ d.binds.objects, o.Suits vars) :
    e.Agrees d vars vars' e' := by
  refine ⟨Option.some.inj (h'.sql.symm.trans h.sql), h'.iters.trans h.iters.symm,
    h'.names.1.trans h.names.1.symm, fun o ho hin v hv hv' => ?_⟩
  obtain ⟨cells, hcells, hlen, harrive⟩ := h.data o ho
  obtain ⟨cells', hcells', hlen', harrive'⟩ := h'.data o ho
  have hsame : ∀ i, o.Covers d.arraySize v.length i → cells'[i]? = cells[i]? := fun i hi =>
    harrive.same harrive' (hs o ho) hin hv hv' hi
  refine ⟨cells, cells', hcells, hcells', hlen'.trans hlen.symm, hsame, fun hfull => List.ext_getElem? fun i => ?_⟩
  by_cases hi : i < o.elemCount
  · exact hsame i (BindPlan.covers_iff.mpr (hfull ▸ hi))
  · rw [List.getElem?_eq_none (by omega), List.getElem?_eq_none (by omega)]

namespace Statement
variable {s : Statement} {stmt : Address} {d : StatementData} {w v : World}

/-- A call that executes nothing fails, and nothing is recorded. -/
def Fails (s : Statement) (w : World) : Prop :=
  (∃ e, (s.executePrepared.run w).1 = .error e) ∧
    (s.executePrepared.run w).2.library.executions = w.library.executions

lemma fails_of_refused {e : ClientError} (h : s.load.run w = (.error e, v)) : s.Fails w := by
  unfold Fails executePrepared
  rw [run_bind, h]
  exact ⟨⟨e, rfl⟩, ((s.aside_load w).rel h).executions⟩

lemma fails_of_none {l : Library} (h : s.load.run w = (.ok (stmt, d), v))
    (he : Library.execute stmt d.arraySize v.memory v.library = (none, l)) : s.Fails w := by
  have hn : runNative stmt d.arraySize v = (none, { v with library := l }) := by rw [runNative, he]
  have hrun : s.executePrepared.run w = ((s.executePrepared.run w).1, (s.executePrepared.run w).2) := rfl
  obtain ⟨u, hn', -⟩ | ⟨u, hn', hsame, herror⟩ := run_executePrepared h hrun
  · cases hn.symm.trans hn'
  · obtain ⟨-, rfl⟩ := Prod.mk.inj (hn.symm.trans hn')
    exact ⟨herror, hsame.trans ((Library.execute_none he).trans ((s.aside_load w).rel h).executions)⟩

/-- Of an execution that goes through natively no more is recorded afterwards. -/
lemma executions_of_some {l : Library} {results : List HookResult} {memory : Memory}
    (h : s.load.run w = (.ok (stmt, d), v))
    (he : Library.execute stmt d.arraySize v.memory v.library = (some (results, memory), l)) :
    (s.executePrepared.run w).2.library.executions = l.executions := by
  rw [world_executePrepared h, runNative, he]
  exact (s.unloads_unload stmt d _).library.executions

end Statement

namespace Application
variable {t : Terms} {a b : Application} {s : Statement} {stmt : Address} {d : StatementData} {v v' : World}

/-- A statement that has been loaded in both applications is executed in both, or fails in both. -/
lemma TwinRuns.recorded (ht : t.foreign = false) (h : TwinRuns t a b) (hs : .statement s ∈ a.items)
    (hload : s.load.run a.world = (.ok (stmt, d), v)) (hload' : s.load.run b.world = (.ok (stmt, d), v'))
    (hnear : v.Nearly v') : s.Fails a.world ∧ s.Fails b.world ∨
      ∃ e e', (s.executePrepared.run a.world).2.library.executions = a.world.library.executions ++ [e] ∧
        (s.executePrepared.run b.world).2.library.executions = b.world.library.executions ++ [e'] ∧
          e.Agrees d a.world.vars b.world.vars e' := by
  have hreach : Reachable t a := h.first.runs
  have hreach' : Reachable t b := h.second.runs
  obtain ⟨l, l', hl, he, he'⟩ | ⟨rs, m, l, rs', m', l', hl, he, he', -⟩ :=
    hnear.library.execute stmt d.arraySize v.memory v'.memory
  · exact .inl ⟨Statement.fails_of_none hload he, Statement.fails_of_none hload' he'⟩
  · obtain ⟨e, hrec, hreports⟩ := hreach.reports ht hload he
    obtain ⟨e', hrec', hreports'⟩ := hreach'.reports ht hload' he'
    refine .inr ⟨e, e', (Statement.executions_of_some hload he).trans hrec,
      (Statement.executions_of_some hload' he').trans hrec', hreports.agrees hreports' ?_⟩
    exact (h.first.suited ht).suits s hs d (hreach.arrives ht hload).1

/-- A statement that has been prepared is executed, when nothing is made to fail on the way. -/
lemma TypedRuns.not_fails (ht : t.foreign = false) (h : TypedRuns t start a) (hs : .statement s ∈ a.items)
    (hd : s.data? a.world = some d) (hrank : Status.prepared.rank ≤ d.status.rank) (hw : a.world.Willing)
    (hfree : a.world.library.failures.get? .execute = none) : ¬s.Fails a.world := by
  rintro ⟨-, hsame⟩
  have hreach : Reachable t a := h.runs
  obtain ⟨stmt, v, hload⟩ := hreach.load_goes ht (h.suited ht) hs hd hrank hw
  have hfree' : v.library.failures.get? .execute = none := (s.steadies_load a.world).rel hload hfree
  have hrun : s.executePrepared.run a.world =
      ((s.executePrepared.run a.world).1, (s.executePrepared.run a.world).2) := rfl
  obtain ⟨e, hrec, -⟩ | ⟨-, hsome, -⟩ := hreach.recorded ht hload hrun
  · simp [hsame] at hrec
  · simp [hfree'] at hsome

/-- What two applications share that make the same calls, with the same values in a variable whenever it is bound. -/
structure CurrentInputLaw (a b : Application) : Prop where
  /-- They hold the same objects, -/
  items : b.items = a.items
  /-- and have the same data beside them: texts, stages, settings and bound variables. -/
  data : ∀ s : Statement, s.data? b.world = s.data? a.world
  /-- When one more statement is executed, both calls fail and record nothing, or both record an execution, in which
  what goes in is settled by what the variables hold now. -/
  recorded : ∀ s, .statement s ∈ a.items → a.world.Willing → s.Fails a.world ∧ s.Fails b.world ∨
    ∃ d e e', s.data? a.world = some d ∧
      (s.executePrepared.run a.world).2.library.executions = a.world.library.executions ++ [e] ∧
      (s.executePrepared.run b.world).2.library.executions = b.world.library.executions ++ [e'] ∧
      e.Agrees d a.world.vars b.world.vars e'
  /-- They do not fail when the statement has been prepared and the native execution is not made to fail. -/
  reached : ∀ s d, .statement s ∈ a.items → s.data? a.world = some d → Status.prepared.rank ≤ d.status.rank →
    a.world.Willing → a.world.library.failures.get? .execute = none → ¬s.Fails a.world

/-- The law of current input holds of any two typed runs that make the same calls. -/
theorem TwinRuns.currentInputLaw (h : TwinRuns ⟨false, true⟩ a b) : CurrentInputLaw a b := by
  have halike : a.Alike b := h.alike rfl
  have hreach : Reachable ⟨false, true⟩ a := h.first.runs
  refine ⟨halike.items, halike.world.data?, fun s hs hw => ?_, fun s d hs hd hrank hw hfree =>
    h.first.not_fails rfl hs hd hrank hw hfree⟩
  rcases hload : s.load.run a.world with ⟨e | ⟨stmt, d⟩, v⟩
  · -- the statement is refused in both applications
    left
    obtain ⟨e', v', hload'⟩ : ∃ e v', s.load.run b.world = (.error e, v') := by
      rcases hload' : s.load.run b.world with ⟨e' | ⟨stmt, d⟩, v'⟩
      · exact ⟨e', v', rfl⟩
      · obtain ⟨u, hu, -⟩ := halike.symm.load rfl h.first (halike.items.symm ▸ hs)
          (halike.world.nearly.willing hw) hload'
        cases hload.symm.trans hu
    exact ⟨Statement.fails_of_refused hload, Statement.fails_of_refused hload'⟩
  · obtain ⟨v', hload', hnear⟩ := halike.load rfl h.second hs hw hload
    obtain hnone | ⟨e, e', he, he', hagree⟩ := h.recorded rfl hs hload hload' hnear
    · exact .inl hnone
    · exact .inr ⟨d, e, e', (hreach.arrives rfl hload).1, he, he', hagree⟩

/-- Before the first execution a vector holds more in one of two applications than in the other, and longer elements;
before the second it holds the same in both. The first execution sends different data, the second one the same. -/
theorem currentInputLaw_after_changes :
    let s : Statement := ⟨0, ⟨0, ⟨some 1⟩⟩, ⟨some 2⟩⟩
    let bound : List Operation := [.createEnvironment default,
      .environment ⟨0, ⟨some 0⟩⟩ (.connect (.ofPassword "db" "user" "word")),
      .connection ⟨0, ⟨some 1⟩⟩ (.prepare "q"), .newVar (.vector .raw [[1], [2]]), .statement s (.setArraySize 2),
      .statement s (.bind (.name "r") 0 .input .regular 2)]
    let after (first : List (List UInt8)) : Application := play (bound ++ [.setVar 0 (.vector .raw first),
      .statement s .executePrepared, .setVar 0 (.vector .raw [[8], [9]])]) start
    CurrentInputLaw (after [[3]]) (after [[4, 5], [6], [7]]) ∧
      (s.executePrepared.run (after [[3]]).world).2.library.executions =
        [⟨"q", 2, [("r", [[3], []])]⟩, ⟨"q", 2, [("r", [[8], [9]])]⟩] ∧
      (s.executePrepared.run (after [[4, 5], [6], [7]]).world).2.library.executions =
        [⟨"q", 2, [("r", [[4, 5], [6]])]⟩, ⟨"q", 2, [("r", [[8], [9]])]⟩] := by
  refine ⟨TwinRuns.currentInputLaw (twinRuns_play .empty ?_), by decide +kernel, by decide +kernel⟩
  refine ⟨.same trivial (by decide +kernel) trivial trivial, .same trivial (by decide +kernel) trivial trivial,
    .same trivial (by decide +kernel) trivial trivial, .same trivial (by decide +kernel) trivial trivial,
    .same trivial (by decide +kernel) trivial nofun, .same trivial (by decide +kernel) trivial rfl, ?_, ?_, ?_, trivial⟩
  · exact .setVar (by change Option.all _ _ = true; decide +kernel) (by change Option.all _ _ = true; decide +kernel)
  · exact ⟨.same _, ⟨trivial, by decide +kernel, trivial⟩, ⟨trivial, by decide +kernel, trivial⟩,
      fun _ => by decide +kernel⟩
  · exact .setVar (by change Option.all _ _ = true; decide +kernel) (by change Option.all _ _ = true; decide +kernel)

/-- Elements that a vector has no longer are sent again. It holds two elements when the statement is executed first,
others in one application than in the other, and the same single one when it is executed again: what is sent behind that
one are the elements of the first execution. -/
theorem leftover_elements_sent :
    let s : Statement := ⟨0, ⟨0, ⟨some 1⟩⟩, ⟨some 2⟩⟩
    let after (first : List (List UInt8)) : Application := play [.createEnvironment default,
      .environment ⟨0, ⟨some 0⟩⟩ (.connect (.ofPassword "db" "user" "word")),
      .connection ⟨0, ⟨some 1⟩⟩ (.prepare "q"), .newVar (.vector .raw [[1], [2]]), .statement s (.setArraySize 2),
      .statement s (.bind (.name "r") 0 .input .regular 2), .setVar 0 (.vector .raw first),
      .statement s .executePrepared, .setVar 0 (.vector .raw [[9]])] start
    TwinRuns ⟨false, true⟩ (after [[3], [4]]) (after [[5], [6]]) ∧
      (after [[5], [6]]).world.vars = (after [[3], [4]]).world.vars ∧
      (s.executePrepared.run (after [[3], [4]]).world).2.library.executions.getLast? =
        some ⟨"q", 2, [("r", [[9], [4]])]⟩ ∧
      (s.executePrepared.run (after [[5], [6]]).world).2.library.executions.getLast? =
        some ⟨"q", 2, [("r", [[9], [6]])]⟩ := by
  refine ⟨twinRuns_play .empty ?_, by decide +kernel, by decide +kernel, by decide +kernel⟩
  refine ⟨.same trivial (by decide +kernel) trivial trivial, .same trivial (by decide +kernel) trivial trivial,
    .same trivial (by decide +kernel) trivial trivial, .same trivial (by decide +kernel) trivial trivial,
    .same trivial (by decide +kernel) trivial nofun, .same trivial (by decide +kernel) trivial rfl, ?_, ?_, ?_, trivial⟩
  · exact .setVar (by change Option.all _ _ = true; decide +kernel) (by change Option.all _ _ = true; decide +kernel)
  · exact ⟨.same _, ⟨trivial, by decide +kernel, trivial⟩, ⟨trivial, by decide +kernel, trivial⟩,
      fun _ => by decide +kernel⟩
  · exact .setVar (by change Option.all _ _ = true; decide +kernel) (by change Option.all _ _ = true; decide +kernel)

end Application
end DbClient
