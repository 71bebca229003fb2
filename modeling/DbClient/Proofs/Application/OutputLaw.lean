import DbClient.Proofs.Application.BindingLaw
import DbClient.Proofs.Transfer.Execution

/-! The law of output in any application: what the variables hold after a statement has been executed is what the
execution has left in the buffers, of which none is shorter than the variables need it. -/
namespace DbClient
namespace Application
open World Library Act
variable {t : Terms} {a : Application} {s : Statement} {stmt : Address} {d : StatementData} {u v w' : World}

/-- The buffers and the entries of all objects survive an execution. -/
lemma Reachable.stands (ht : t.foreign = false) (h : Reachable t a) (hr : s.load.run a.world = (.ok (stmt, d), v))
    {iters : Nat} (hn : Statement.runNative stmt iters v = (some (), u)) : ∀ o ∈ d.binds.objects, o.Stands stmt u := by
  obtain ⟨hw, id, n, -, hl, rfl, hx, hrank⟩ := h.loaded ht hr
  obtain ⟨results, memory, l, he, rfl⟩ := Statement.ok_of_runNative hn
  obtain ⟨opened, hexec⟩ := executed he
  have hu : Bindings { v with library := l, memory := memory, log := v.log ++ results.map .hook } :=
    hw.executed hexec _
  have hd : HasData { v with library := l, memory := memory, log := v.log ++ results.map .hook } id n d := ⟨hl, hx⟩
  exact fun o ho => ⟨there_of_stocked (hu.stocked id n d hd) ho, hu.entry hd hrank ho⟩

/-- What an execution delivers. -/
structure OutputLaw (w : World) : Prop where
  /-- A statement that has been executed has delivered its variables from what the native execution left, with all
  buffers in full length. -/
  executed : ∀ (s : Statement) w', s.executePrepared.run w = (.ok (), w') → ∃ stmt d v u,
    s.data? w = some d ∧ s.load.run w = (.ok (stmt, d), v) ∧
      Statement.runNative stmt d.arraySize v = (some (), u) ∧ u.vars = w.vars ∧
      (∀ o ∈ d.binds.objects, o.Stands stmt u) ∧ BindObject.Delivers d.binds.objects stmt d.arraySize u w'
  /-- It would have done so from anything else in the buffers and with any other actual lengths. -/
  anything : ∀ (s : Statement) stmt d v, s.load.run w = (.ok (stmt, d), v) → ∀ u w',
    (d.binds.pull stmt d.arraySize).run u = (.ok (), w') →
    BindObject.Delivers d.binds.objects stmt d.arraySize u w'

/-- The law of output holds whenever an application is between two operations, and any primitive may fail at any
time. -/
theorem Reachable.outputLaw (h : Reachable ⟨false, true⟩ a) : OutputLaw a.world := by
  refine ⟨fun s w' hrun => ?_, fun s stmt d v hr u w' hpull => BindObject.delivers_of_exchangeAll hpull⟩
  obtain ⟨⟨stmt, d⟩, v, hload, -⟩ := ok_of_bind hrun
  obtain ⟨u, hn, hback⟩ | ⟨u, -, -, e, he⟩ := Statement.run_executePrepared hload hrun
  · obtain ⟨id, n, ids, count, v', hid, hl, -, hx, -⟩ := Statement.load_steps h.fit.sound.forest hload
    obtain ⟨results, memory, l, -, hu⟩ := Statement.ok_of_runNative hn
    have hvars : u.vars = a.world.vars := by
      rw [hu]
      exact ((s.aside_load a.world).rel hload).vars
    refine ⟨stmt, d, v, u, Statement.data?_eq_some.mpr ⟨id, n, hid, hl, hx⟩, hload, hn, hvars,
      h.stands rfl hload hn, ?_⟩
    exact Statement.delivers_of_unload hback
  · cases he

/-- The hook writes to all four objects. The first variable is bound twice and takes what the second object brings,
the second one only goes in, and the vector takes the two elements for which the array has room, the first of them
cut to two bytes. -/
theorem outputLaw_after_hook :
    let s : Statement := ⟨0, ⟨0, ⟨some 1⟩⟩, ⟨some 2⟩⟩
    let w := (play [.createEnvironment default,
      .environment ⟨0, ⟨some 0⟩⟩ (.connect (.ofPassword "db" "user" "word")),
      .connection ⟨0, ⟨some 1⟩⟩ (.prepare "q"), .newVar (.single .bool false), .newVar (.single .string "in"),
      .newVar (.vector .raw [[1], [2], [3]]), .statement s (.setArraySize 2),
      .statement s (.bind (.name "b") 0 .both .regular 0), .statement s (.bind (.name "s") 1 .input .regular 2),
      .statement s (.bind (.name "r") 2 .output .regular 2), .statement s (.bind (.name "c") 0 .output .regular 0),
      .library (.onExecute "q" [.write "b" 1 ⟨.bool, false⟩, .write "c" 1 ⟨.bool, true⟩, .writeBytes "s" 1 [120],
        .writeBytes "r" 1 [7, 8, 9], .writeBytes "r" 2 []])] start).world
    OutputLaw w ∧ (s.executePrepared.run w).1.toOption = some () ∧
      (s.executePrepared.run w).2.vars.rows.values.map HostVar.text =
        ["HostVar(true)", "HostVar(\"in\")", "HostVar([[7, 8], [], [3]])"] := by
  refine ⟨Reachable.outputLaw (runs_play ?_), by decide +kernel, by decide +kernel⟩
  exact ⟨trivial, by decide +kernel, trivial, by decide +kernel, trivial, by decide +kernel, trivial,
    by decide +kernel, trivial, by decide +kernel, trivial, by decide +kernel, trivial, by decide +kernel, trivial,
    by decide +kernel, trivial, by decide +kernel, trivial, by decide +kernel, trivial, by decide +kernel, trivial,
    by decide +kernel, trivial⟩

end Application
end DbClient
