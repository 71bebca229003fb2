import DbClient.Proofs.Alike.Application
import DbClient.Proofs.Transfer.Hooks
import DbClient.Proofs.Transfer.RoundTrip

/-! The law of round trips in any application: an execution whose hook leaves the variables alone brings back what it
took along, cut to the declared sizes, and never fails. A second one changes nothing more. -/
namespace DbClient
open Act World Library

namespace StatementData
variable {d : StatementData} {w w' : World} {vars vars' : Table HostVar}

/-- All that is bound goes in and comes out again, and nothing interferes. -/
structure Circular (d : StatementData) (w : World) : Prop where
  both : ∀ o ∈ d.binds.objects, o.direction = .both
  /-- No two objects share a variable. -/
  apart : (d.binds.objects.map fun o => o.var).Nodup
  leapless : ∀ o ∈ d.binds.objects, ∀ v ∈ w.vars.get? o.var, v.Leapless
  /-- The hook of the text writes to none of the names. -/
  hook : ∀ sql ∈ d.sql, HookAction.Spare d.binds.names ((w.library.hooks.get? sql).getD [])
  willing : w.Willing
  free : w.library.failures.get? .execute = none

instance (d : StatementData) (w : World) : Decidable (d.Circular w) :=
  decidable_of_iff ((∀ o ∈ d.binds.objects, o.direction = .both) ∧ (d.binds.objects.map fun o => o.var).Nodup ∧
      (∀ o ∈ d.binds.objects, ∀ v ∈ w.vars.get? o.var, v.Leapless) ∧
      (∀ sql ∈ d.sql, HookAction.Spare d.binds.names ((w.library.hooks.get? sql).getD [])) ∧ w.Willing ∧
      w.library.failures.get? .execute = none)
    ⟨fun ⟨h1, h2, h3, h4, h5, h6⟩ => ⟨h1, h2, h3, h4, h5, h6⟩, fun ⟨h1, h2, h3, h4, h5, h6⟩ => ⟨h1, h2, h3, h4, h5, h6⟩⟩

/-- What a round trip makes of the variables. -/
structure Returns (d : StatementData) (vars vars' : Table HostVar) : Prop where
  bound : ∀ o ∈ d.binds.objects,
    ∃ v v', vars.get? o.var = some v ∧ vars'.get? o.var = some v' ∧ o.Settles d.arraySize v v'
  others : ∀ x, (∀ o ∈ d.binds.objects, o.var ≠ x) → vars'.get? x = vars.get? x

/-- A second round trip changes nothing more. -/
lemma Returns.again {vars'' : Table HostVar} (h : d.Returns vars vars') (h' : d.Returns vars' vars'') (x : Nat) :
    vars''.get? x = vars'.get? x := by
  by_cases hx : ∀ o ∈ d.binds.objects, o.var ≠ x
  · exact h'.others x hx
  · push Not at hx
    obtain ⟨o, ho, rfl⟩ := hx
    obtain ⟨u, v, -, hv, hsettles⟩ := h.bound o ho
    obtain ⟨v', w, hv', hw, hsettles'⟩ := h'.bound o ho
    obtain rfl := Option.some.inj (hv.symm.trans hv')
    rw [hw, hv, hsettles.again hsettles']

/-- After one round trip another one can be made. -/
lemma Circular.next {d' : StatementData} (h : d.Circular w) (hr : d.Returns w.vars w'.vars) (hhooks : w.SameHooks w')
    (hsteady : ∀ p, w.Steadies p w') (hsql : d'.sql = d.sql) (hbinds : d'.binds = d.binds) : d'.Circular w' where
  both := hbinds ▸ h.both
  apart := hbinds ▸ h.apart
  leapless o ho v' hv' := by
    rw [hbinds] at ho
    obtain ⟨v, u, hv, hu, hsettles⟩ := hr.bound o ho
    obtain rfl := Option.some.inj (hu.symm.trans hv')
    exact hsettles.leapless (h.leapless o ho v hv)
  hook := by
    have hsame : w'.library.hooks = w.library.hooks := hhooks
    rw [hsql, hbinds, hsame]
    exact h.hook
  willing := hsteady .dataSize h.willing
  free := hsteady .execute h.free

end StatementData

namespace Statement
variable {s : Statement} {stmt : Address} {d : StatementData} {u w w' : World} {id : Nat} {n : Node}

lemma steadies_unload {p : Primitive} (s : Statement) (stmt : Address) (d : StatementData) (w : World) :
    Does (Steadies p) (s.unload stmt d) w := by
  have hput : Does (Steadies p) (update (s.putData { d with status := .executed })) w :=
    .of_eq (s.putData_aside { d with status := .executed } w).1
  have hpull : ∀ v, Does (Steadies p) (d.binds.pull stmt d.arraySize) v := fun v => BindObject.does_exchangeAll
    (fun _ _ _ _ => trivial) (fun o _ _ hw => (BindObject.steadies_unloading stmt d.arraySize o).pull hw) trivial
  exact hput.seq fun _ v _ => (hpull v).dressed.seq fun _ _ _ => .of_eq rfl

/-- What is kept of a statement that has been unloaded. -/
lemma data?_of_unload (hid : s.handle.node = some id) (hl : u.Live id n)
    (h : (s.unload n.native d).run u = (.ok (), w')) : s.data? w' = some { d with status := .executed } := by
  obtain ⟨_, v, hput, hrest⟩ := ok_of_bind h
  obtain ⟨-, rfl⟩ := Prod.mk.inj hput
  obtain ⟨_, x, hpull, hnote⟩ := ok_of_bind hrest
  obtain ⟨-, rfl⟩ := Prod.mk.inj hnote
  rw [putData_of_live hid hl] at hpull
  have hlive := hl.keeping { d with status := .executed }
  have hquiet := (d.binds.quiet_pull ⟨id, _, hlive, rfl⟩ d.arraySize).rel (ok_of_dressed hpull)
  exact data?_eq_some.mpr ⟨id, n.keeping { d with status := .executed }, hid, hquiet.live ▸ hlive, rfl⟩

/-- An execution that has brought the variables of a statement back. -/
structure RoundTrip (s : Statement) (d : StatementData) (w w' : World) : Prop where
  done : s.executePrepared.run w = (.ok (), w')
  returns : d.Returns w.vars w'.vars
  data : s.data? w' = some { d with status := .executed }
  hooks : w.SameHooks w'
  steady : ∀ p, w.Steadies p w'

end Statement

namespace Application
open BindObject (Echoes)
variable {t : Terms} {a : Application} {s : Statement} {stmt : Address} {d : StatementData} {v : World}

/-- A native execution that leaves the variables alone goes through, and out of all cells comes what has gone in. -/
lemma Reachable.echoes (ht : t.foreign = false) (h : Reachable t a) (ha : a.Suited) (hs : .statement s ∈ a.items)
    (hload : s.load.run a.world = (.ok (stmt, d), v)) (hc : d.Circular a.world) :
    ∃ u, Statement.runNative stmt d.arraySize v = (some (), u) ∧ u.vars = a.world.vars ∧ u.nodes = v.nodes ∧
      ∀ o ∈ d.binds.objects, o.Echoes stmt d.arraySize u.vars u := by
  obtain ⟨hw, id, n, -, hl, rfl, hx, hrank⟩ := h.loaded ht hload
  obtain ⟨st, hst, hag⟩ := hw.agree id n d ⟨hl, hx⟩ hrank
  obtain ⟨sql, mode, hp, hsql⟩ := hag.text
  have hfree : v.library.failures.get? .execute = none := (s.steadies_load a.world).rel hload hc.free
  obtain ⟨results, memory, l, he⟩ : ∃ results memory l,
      Library.execute n.native d.arraySize v.memory v.library = (some (results, memory), l) := execute_goes hst hp hfree
  have hspare : HookAction.Spare st.binds.keys ((v.library.hooks.get? sql).getD []) := by
    have hsame : v.library.hooks = a.world.library.hooks := (s.sameHooks_load a.world).rel hload
    rw [hsame]
    exact fun action hmem name htarget hbound => hc.hook sql hsql action hmem name htarget (hag.keys.mem_iff.mp hbound)
  obtain ⟨rfl, hbound⟩ := execute_spare hst hp hspare he
  have hn : Statement.runNative n.native d.arraySize v =
      (some (), { v with library := l, log := v.log ++ results.map .hook }) := by
    rw [Statement.runNative, he]
  have hvars : v.vars = a.world.vars := ((s.aside_load a.world).rel hload).vars
  refine ⟨_, hn, hvars, rfl, fun o ho => ?_⟩
  obtain ⟨hstands, hshape, hsuits⟩ := h.fitted_executed ht ha hs hload hn o ho
  have hboth := hc.both o ho
  refine BindObject.echoes_of_arrives hstands hshape hsuits (by rw [hboth]; rfl) ?_ ?_
  · exact fun x hx => hc.leapless o ho x (hvars ▸ hx)
  · have harrives := (h.arrives ht hload).2 o ho
    simp only [seen?, hbound]
    exact hvars ▸ harrives

/-- An execution is a round trip when nothing interferes. -/
theorem TypedRuns.roundTrip (ht : t.foreign = false) (h : TypedRuns t start a) (hs : .statement s ∈ a.items)
    (hd : s.data? a.world = some d) (hrank : Status.prepared.rank ≤ d.status.rank) (hc : d.Circular a.world) :
    ∃ w, s.RoundTrip d a.world w := by
  have hreach : Reachable t a := h.runs
  have ha : a.Suited := h.suited ht
  obtain ⟨stmt, v, hload⟩ := hreach.load_goes ht ha hs hd hrank hc.willing
  obtain ⟨u, hn, hvars, hnodes, hechoes⟩ := hreach.echoes ht ha hs hload hc
  have hfit := hreach.fitted_executed ht ha hs hload hn
  have hsteady : ∀ p, a.world.Steadies p u := fun p =>
    trans_of (World.Steadies p) ((s.steadies_load a.world).rel hload) (Statement.steadies_of_runNative hn)
  have hhooks : a.world.SameHooks u :=
    trans_of SameHooks ((s.sameHooks_load a.world).rel hload) (Statement.sameHooks_of_runNative hn)
  have hgo := Statement.unload_goes (s := s) hfit (hsteady .dataSize hc.willing) hc.apart hechoes
  have hback : (s.unload stmt d).run u = (.ok (), ((s.unload stmt d).run u).2) := Prod.ext hgo rfl
  generalize ((s.unload stmt d).run u).2 = w at hback
  have hdone : s.executePrepared.run a.world = (.ok (), w) := by
    rw [Statement.executePrepared, run_bind, hload]
    dsimp only
    rw [run_bind, run_modifyGet, hn]
    exact hback
  have hdelivers := Statement.delivers_of_unload hback
  refine ⟨w, hdone, ⟨fun o ho => ?_, fun x hx => ?_⟩, ?_, ?_, fun p => ?_⟩
  · obtain ⟨-, hshape, hsuits⟩ := hfit o ho
    have hout : o.direction.isOut = true := by
      rw [hc.both o ho]
      rfl
    rw [← hvars]
    exact BindObject.settles_of_delivers hdelivers hc.apart ho hout hshape hsuits (hechoes o ho)
  · rw [hdelivers.others x fun o ho _ => hx o ho, hvars]
  · obtain ⟨id, n, hid, hl, rfl, -⟩ := Statement.load_spec hreach.fit.sound hload
    have hlu : u.Live id n := ⟨hnodes ▸ hl.1, hl.2⟩
    exact Statement.data?_of_unload hid hlu hback
  · exact trans_of SameHooks hhooks ((s.sameHooks_unload stmt d u).rel hback)
  · exact trans_of (World.Steadies p) (hsteady p) ((s.steadies_unload stmt d u).rel hback)

/-- What executions make of variables that go in and come out. -/
structure RoundTripLaw (a : Application) : Prop where
  /-- An execution of a statement that has been prepared goes through. Each variable that is bound settles to what of it
  fits into the declared sizes, and all others stay as they are. -/
  returns : ∀ s d, .statement s ∈ a.items → s.data? a.world = some d → Status.prepared.rank ≤ d.status.rank →
    d.Circular a.world → ∃ w, s.executePrepared.run a.world = (.ok (), w) ∧ d.Returns a.world.vars w.vars
  /-- So does a second one, which changes no variable. -/
  again : ∀ s d w, .statement s ∈ a.items → s.data? a.world = some d → Status.prepared.rank ≤ d.status.rank →
    d.Circular a.world → s.executePrepared.run a.world = (.ok (), w) →
    ∃ w', s.executePrepared.run w = (.ok (), w') ∧ ∀ x, w'.vars.get? x = w.vars.get? x
  /-- The sizes are those that were declared in the binds. -/
  declared : ∀ (s : Statement) index var direction kind size v w, a.world.vars.get? var = some v →
    (s.bind index var direction kind size).run a.world = (.ok (), w) → ∃ d o, s.data? w = some d ∧
      o ∈ d.binds.objects ∧ o.name = index.text ∧ o.var = var ∧ o.direction = direction ∧ o.LaysOut size v
  /-- Whatever was declared, all that is bound fits into its buffer: a bind that would need a longer one than there can
  be has overflowed. -/
  fits : ∀ s d, .statement s ∈ a.items → s.data? a.world = some d → ∀ o ∈ d.binds.objects, o.Fits

theorem TypedRuns.roundTripLaw (h : TypedRuns ⟨false, true⟩ start a) : RoundTripLaw a where
  returns s d hs hd hrank hc := by
    obtain ⟨w, htrip⟩ := h.roundTrip rfl hs hd hrank hc
    exact ⟨w, htrip.done, htrip.returns⟩
  again s d w hs hd hrank hc hrun := by
    obtain ⟨w', htrip⟩ := h.roundTrip rfl hs hd hrank hc
    obtain ⟨-, rfl⟩ := Prod.mk.inj (htrip.done.symm.trans hrun)
    have hready : a.Ready (.statement s .executePrepared) := by
      refine ⟨fun i hi => ⟨.statement s, hs, ?_⟩, Multiset.zero_le _⟩
      obtain rfl := List.mem_singleton.mp hi
      simp [Item.parts]
    have hnext : TypedRuns ⟨false, true⟩ start (Operation.after (.statement s .executePrepared) a) :=
      h.next trivial hready trivial
    have hworld : (Operation.after (.statement s .executePrepared) a).world = w' := by
      rw [world_after (f := fun _ => 0) rfl, hrun]
    have hitems : .statement s ∈ (Operation.after (.statement s .executePrepared) a).items := by
      rw [items_after rfl]
      exact (Multiset.sub_zero a.items).symm ▸ hs
    have hcircular : StatementData.Circular { d with status := .executed } w' :=
      hc.next htrip.returns htrip.hooks htrip.steady rfl rfl
    have hexecuted : Status.prepared.rank ≤ Status.executed.rank := by decide
    rw [← hworld] at hcircular
    obtain ⟨w'', htrip'⟩ := hnext.roundTrip rfl hitems (hworld ▸ htrip.data) hexecuted hcircular
    rw [hworld] at htrip'
    have hreturns : d.Returns w'.vars w''.vars := ⟨htrip'.returns.bound, htrip'.returns.others⟩
    exact ⟨w'', htrip'.done, htrip.returns.again hreturns⟩
  declared _ _ _ _ _ _ _ _ hv hrun := Statement.laysOut_of_bind hv hrun
  fits _ _ _ hd _ ho := Reachable.fits rfl h.runs hd ho

/-- A text of six letters of two bytes each is bound with room for five bytes, a moment, a number that is none, and a
vector with room for two bytes in each of its elements, of which three have a place in the array. The hook reads, and it
appends to a variable that is not bound. -/
theorem roundTripLaw_with_cut_letter :
    let s : Statement := ⟨0, ⟨0, ⟨some 1⟩⟩, ⟨some 2⟩⟩
    let nan : HostVar := .single (.float .double) ⟨0xFFF8000000000123, by decide⟩
    let a := play [.createEnvironment default,
      .environment ⟨0, ⟨some 0⟩⟩ (.connect (.ofPassword "db" "user" "word")), .connection ⟨0, ⟨some 1⟩⟩ (.prepare "q"),
      .newVar (.single .string "привет"), .newVar (.single .dateTime ⟨-1, 1234567, by decide, by decide⟩), .newVar nan,
      .newVar (.vector .raw [[1, 0, 3], [], [4], [5, 6, 7]]), .statement s (.setArraySize 3),
      .statement s (.bind (.name "t") 0 .both .regular 5), .statement s (.bind (.name "d") 1 .both .regular 0),
      .statement s (.bind (.name "n") 2 .both .regular 0), .statement s (.bind (.name "r") 3 .both .regular 2),
      .library (.onExecute "q" [.iterations, .readText "t" 1, .append "x" "y"])] start
    let w := (s.executePrepared.run a.world).2
    RoundTripLaw a ∧ ((s.data? a.world).any fun d => decide (d.Circular a.world)) = true ∧
      (s.executePrepared.run a.world).1 = .ok () ∧
      w.vars.rows.values = [.single .string "пр", .single .dateTime ⟨-1, 1234000, by decide, by decide⟩, nan,
        .vector .raw [[1, 0], [], [4], [5, 6, 7]]] ∧
      (s.executePrepared.run w).1 = .ok () ∧ (s.executePrepared.run w).2.vars = w.vars := by
  refine ⟨TypedRuns.roundTripLaw (typedRuns_play ?_ ?_), by decide +kernel, by decide +kernel, by decide +kernel,
    by decide +kernel, by decide +kernel⟩
  · exact ⟨trivial, by decide +kernel, trivial, by decide +kernel, trivial, by decide +kernel, trivial,
      by decide +kernel, trivial, by decide +kernel, trivial, by decide +kernel, trivial, by decide +kernel, trivial,
      by decide +kernel, trivial, by decide +kernel, trivial, by decide +kernel, trivial, by decide +kernel, trivial,
      by decide +kernel, trivial, by decide +kernel, trivial⟩
  · exact ⟨trivial, trivial, trivial, trivial, trivial, trivial, trivial, trivial, trivial, trivial, trivial, trivial,
      trivial, trivial⟩

end Application
end DbClient
