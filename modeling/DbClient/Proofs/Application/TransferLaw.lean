import DbClient.Proofs.Application.InputLaw
import DbClient.Proofs.Application.OutputLaw
import DbClient.Proofs.Frame.Application
import DbClient.Proofs.Transfer.Faults

/-! The law of transfers in any application whose variables keep their types: whatever becomes of vectors and texts
between a bind and an execution, and to whatever size the array is set, no exchange goes beyond the bounds of a buffer,
of a vector or of what the native library accepts. -/
namespace DbClient
open Act World Library

/-! ### Typed variables -/

/-- No variable is lost, and none changes its sort. -/
def SameSorts (vars vars' : Table HostVar) : Prop := vars.Lawful → vars'.Lawful ∧
  ∀ x v, vars.get? x = some v → ∃ v', vars'.get? x = some v' ∧ v'.sort = v.sort

namespace SameSorts
variable {vars vars' : Table HostVar} {o : BindPlan}

instance : Std.Refl SameSorts := ⟨fun _ h => ⟨h, fun _ v hv => ⟨v, hv, rfl⟩⟩⟩

instance : IsTrans (Table HostVar) SameSorts := ⟨fun _ _ _ h h' hl => by
  obtain ⟨hl', hkeep⟩ := h hl
  obtain ⟨hl'', hkeep'⟩ := h' hl'
  refine ⟨hl'', fun x v hv => ?_⟩
  obtain ⟨v', hv', hs⟩ := hkeep x v hv
  obtain ⟨v'', hv'', hs'⟩ := hkeep' x v' hv'
  exact ⟨v'', hv'', hs'.trans hs⟩⟩

/-- A value of the same sort comes to a variable. -/
lemma modify {i : Nat} {v : HostVar} (h : ∀ old, vars.get? i = some old → v.sort = old.sort) :
    SameSorts vars (vars.modify i fun _ => v) := by
  refine fun hl => ⟨hl.modify i _, fun x old hold => ?_⟩
  rw [Table.get?_modify]
  split
  · rename_i he
    subst he
    exact ⟨v, by rw [hold]; rfl, h old hold⟩
  · exact ⟨old, hold, rfl⟩

lemma add (v : HostVar) : SameSorts vars (vars.add v) := by
  refine fun hl => ⟨hl.add v, fun x old hold => ⟨old, ?_, rfl⟩⟩
  rw [Table.get?_add, if_neg (Nat.ne_of_gt (hl.handed x old hold))]
  exact hold

lemma receives : Receives SameSorts where
  single t x ty y z h := modify fun old hold => by
    obtain rfl := Option.some.inj (h.symm.trans hold)
    rfl
  element t x ty ys i z h := modify fun old hold => by
    obtain rfl := Option.some.inj (h.symm.trans hold)
    rfl

/-- A variable suits an object as long as it keeps its sort. -/
lemma suits (h : SameSorts vars vars') (hl : vars.Lawful) (hs : o.Suits vars) : o.Suits vars' := by
  obtain ⟨v, hv, hsort⟩ := hs
  obtain ⟨v', hv', hsort'⟩ := (h hl).2 _ v hv
  exact ⟨v', hv', hsort'.trans hsort⟩

end SameSorts

/-- An operation gives no variable a value of another sort, for variables are typed. -/
def Operation.Typed (w : World) : Operation → Prop
  | setVar i v => (w.vars.get? i).all (fun old => decide (v.sort = old.sort)) = true
  | _ => True

lemma Operation.Typed.sets {op : Operation} {w : World} (h : op.Typed w) : op.Sets SameSorts w := by
  cases op with
  | newVar v => exact SameSorts.add v
  | setVar i v =>
    refine SameSorts.modify fun old hold => ?_
    have hall : (w.vars.get? i).all (fun old => decide (v.sort = old.sort)) = true := h
    simpa [hold] using hall
  | _ => trivial

/-- Nothing is bound that was not bound before. -/
def StatementData.Fewer (c d : StatementData) : Prop := ∀ o ∈ d.binds.objects, o ∈ c.binds.objects

instance : Std.Refl StatementData.Fewer := ⟨fun _ _ h => h⟩

instance : IsTrans StatementData StatementData.Fewer := ⟨fun _ _ _ h h' o ho => h o (h' o ho)⟩

/-- Besides binds nothing binds an object. -/
lemma Operation.bears_fewer {op : Operation} {id : Nat} (hb : ∀ s index var direction kind size,
    op = .statement s (.bind index var direction kind size) → s.handle.node ≠ some id) (w : World) :
    op.Bears id StatementData.Fewer w := by
  cases op with
  | statement s k =>
    intro hid
    cases k with
    | prepare mode sql => exact fun _ => ⟨nofun, nofun⟩
    | execute sql => exact ⟨fun _ => ⟨nofun, nofun⟩, fun _ _ _ ho => ho⟩
    | bind index var direction kind size => exact absurd hid (hb s index var direction kind size rfl)
    | executePrepared => exact fun _ _ _ ho => ho
    | setArraySize size => exact fun _ _ _ _ ho => ho
    | allowRebinding allow => exact fun _ _ ho => ho
    | setFetchMode mode => exact fun _ _ ho => ho
    | _ => trivial
  | _ => trivial

namespace Application
variable {t : Terms} {a b : Application} {s : Statement} {d : StatementData} {stmt : Address} {u v : World}

/-- Runs in which variables keep their sorts. -/
def TypedRuns (t : Terms) : Application → Application → Prop :=
  Relation.ReflTransGen fun a b => ∃ op : Operation, op.Permitted t ∧ a.Ready op ∧ op.Typed a.world ∧ b = op.after a

lemma TypedRuns.runs (h : TypedRuns t a b) : Runs t a b :=
  Relation.ReflTransGen.mono (fun _ _ ⟨op, hp, hr, _, he⟩ => ⟨op, hp, hr, he⟩) _ _ h

/-- No operation of a list gives a variable a value of another sort. -/
def AllTyped : List Operation → Application → Prop := Throughout fun op w => op.Typed w

theorem typedRuns_play {ops : List Operation} (h : Legal t ops a) (hty : AllTyped ops a) :
    TypedRuns t a (play ops a) := by
  induction ops generalizing a with
  | nil => exact Relation.ReflTransGen.refl
  | cons op rest ih =>
    obtain ⟨hp, hr, hrest⟩ := h
    obtain ⟨hop, htail⟩ := hty
    exact Relation.ReflTransGen.head ⟨op, hp, hr, hop, rfl⟩ (ih hrest htail)

/-- What is bound to the statements at hand has variables that suit it. -/
structure Suited (a : Application) : Prop where
  lawful : a.world.vars.Lawful
  suits : ∀ s, .statement s ∈ a.items → ∀ d, s.data? a.world = some d → ∀ o ∈ d.binds.objects, o.Suits a.world.vars

/-- What is bound after a bind was bound before it, or it is made for its variable as it is. -/
lemma suits_bind {w : World} {index : BindIndex} {var : Nat} {direction : Direction} {kind : VectorKind} {size : Nat}
    {id : Nat} {m : Node} (hid : s.handle.node = some id)
    (hd : ((s.bind index var direction kind size).run w).2.HasData id m d) {o : BindObject}
    (ho : o ∈ d.binds.objects) : (∃ n c, w.HasData id n c ∧ o ∈ c.binds.objects) ∨ o.Suits w.vars := by
  have hsame : ∀ {v : World}, v.nodes = w.nodes → v.HasData id m d → ∃ n c, w.HasData id n c ∧ o ∈ c.binds.objects :=
    fun hv hd => ⟨m, d, ⟨⟨hv ▸ hd.1.1, hd.1.2⟩, hd.2⟩, ho⟩
  cases hv : w.vars.get? var with
  | none =>
    rw [Statement.bind, run_bind, run_get] at hd
    dsimp only at hd
    rw [hv] at hd
    exact .inl (hsame rfl hd)
  | some x =>
    obtain ⟨_, -, hnodes, -⟩ | ⟨i, n, c, p, -, hb⟩ := s.ends_bind index direction kind size hv
    · exact .inl (hsame hnodes hd)
    · obtain rfl := Option.some.inj (hid.symm.trans hb.handle)
      have hnew := hd.1.1
      rw [hb.nodes, Table.get?_modify, if_pos rfl, hb.live.1] at hnew
      obtain rfl := Option.some.inj hnew
      obtain rfl : c.bound p = d := Extra.statement.inj (Option.some.inj hd.2)
      rcases BindsHolder.mem_add ho with ho | rfl
      · exact .inl ⟨n, c, ⟨hb.live, hb.keeps⟩, ho⟩
      · have hplan := hb.plan
        have hmade : BindPlan.MadeFor o.toBindPlan c w := by
          have hvar : o.var = var := by
            rw [hplan]
            cases x <;> rfl
          have hdir : o.direction = direction := by
            rw [hplan]
            cases x <;> rfl
          exact ⟨x, kind, size, hvar ▸ hv, by rw [hvar, hdir]; exact hplan⟩
        exact .inr hmade.suits

/-- Variables go on to suit what is bound. -/
lemma Suited.after {op : Operation} (ha : a.Suited) (ht : t.foreign = false) (h : Reachable t a) (hp : op.Permitted t)
    (hr : a.Ready op) (hty : op.Typed a.world) : (op.after a).Suited := by
  have hbears : op.Bears 0 Anyhow a.world := op.bears_anyhow _
  have hsorts : SameSorts a.world.vars (op.after a).world.vars :=
    (h.alters ht hp hr SameSorts.receives hty.sets hbears).vars
  refine ⟨(hsorts ha.lawful).1, fun s hs d hd o ho => ?_⟩
  obtain ⟨id, n, hid, hdata, -⟩ := ((h.next hp hr).seated ht).data hs hd
  rcases h.begins ht hr hs with hold | hnew
  · obtain ⟨i, hi, ⟨m, hm⟩, -⟩ := h.seated ht s hold
    obtain rfl := Option.some.inj (hid.symm.trans hi)
    have hbefore : ∀ n c, a.world.HasData id n c → o ∈ c.binds.objects → o.Suits (op.after a).world.vars :=
      fun n c hc hoc => hsorts.suits ha.lawful
        (ha.suits s hold c (Statement.data?_eq_some.mpr ⟨id, n, hid, hc.1, hc.2⟩) o hoc)
    by_cases hb : ∀ s index var direction kind size,
        op = .statement s (.bind index var direction kind size) → s.handle.node ≠ some id
    · have halters := h.alters (V := Anyhow) (R := StatementData.Fewer) ht hp hr receives_anyhow
        (op.sets_anyhow _) (op.bears_fewer hb _)
      obtain ⟨n', c, hc, hfewer⟩ := halters.data (h.fit.sound.forest.table.handed id m hm) n d hdata
      exact hbefore n' c hc (hfewer o ho)
    · push Not at hb
      obtain ⟨s', index, var, direction, kind, size, rfl, hnode⟩ := hb
      have hworld : (Operation.after (.statement s' (.bind index var direction kind size)) a).world = _ :=
        world_after (f := fun _ => 0) rfl
      rw [hworld] at hdata
      rcases suits_bind hnode hdata ho with ⟨n', c, hc, hoc⟩ | hsuits
      · exact hbefore n' c hc hoc
      · exact hsorts.suits ha.lawful hsuits
  · obtain rfl := Option.some.inj (hid.symm.trans hnew.node)
    rw [hnew.empty n d hdata] at ho
    cases ho

/-- Along a typed run variables suit what is bound to statements. -/
theorem TypedRuns.suited (ht : t.foreign = false) (h : TypedRuns t start a) : a.Suited := by
  induction h with
  | refl => exact ⟨Table.lawful_empty, fun s hs => absurd hs (Multiset.notMem_zero _)⟩
  | tail hrun hstep ih =>
    obtain ⟨op, hp, hr, hty, rfl⟩ := hstep
    exact ih.after ht (TypedRuns.runs hrun) hp hr hty

/-! ### Executions -/

open BindObject (Fitted Stuck)

/-- When its resultsets are gone, all that is bound to a statement that has been prepared can be exchanged. -/
lemma Reachable.fitted_released (ht : t.foreign = false) (h : Reachable t a) (ha : a.Suited)
    (hs : .statement s ∈ a.items) {id count : Nat} {n : Node} (hid : s.handle.node = some id) (hl : a.world.Live id n)
    (hrelease : s.releaseResultsets.run a.world = (.ok count, u)) (hd : s.data? u = some d)
    (hrank : Status.prepared.rank ≤ d.status.rank) :
    s.data? a.world = some d ∧ Fitted d.binds.objects n.native u := by
  obtain ⟨count', u', ids, hrelease', hlu, -⟩ := Statement.cleared_releaseResultsets h.fit.sound.forest hid hl
  obtain ⟨-, rfl⟩ := Prod.mk.inj (hrelease'.symm.trans hrelease)
  have hkeep : (n.without ids).Keeps d := Statement.keeps_of_data? hid hlu hd
  have hx : n.Keeps d := hkeep
  have hdata : s.data? a.world = some d := Statement.data?_eq_some.mpr ⟨id, n, hid, hl, hx⟩
  have hpath : Path t (a.held, a.world) (a.held, u') := s.course_releaseResultsets.rel hrelease h.fit.sound
  have hw : Bindings u' := Path.bindings ht hpath h.fit.sound (h.owns ht) (h.bindings ht)
  have hstocked := hw.stocked id _ d ⟨hlu, hkeep⟩
  have haside : Aside a.world u' := (s.aside_releaseResultsets a.world).rel hrelease
  refine ⟨hdata, fun o ho => ⟨⟨there_of_stocked hstocked ho, hw.entry ⟨hlu, hkeep⟩ hrank ho⟩, ?_, ?_⟩⟩
  · exact h.allData StatementData.Shaped.lasting ht id n d ⟨hl, hx⟩ o ho
  · rw [haside.vars]
    exact ha.suits s hs d hdata o ho

/-- It can be after the native execution, too. -/
lemma Reachable.fitted_executed (ht : t.foreign = false) (h : Reachable t a) (ha : a.Suited)
    (hs : .statement s ∈ a.items) (hr : s.load.run a.world = (.ok (stmt, d), v)) {iters : Nat}
    (hn : Statement.runNative stmt iters v = (some (), u)) : Fitted d.binds.objects stmt u := by
  obtain ⟨id, n, ids, count, v', hid, hl, -, hx, -⟩ := Statement.load_steps h.fit.sound.forest hr
  obtain ⟨results, memory, l, -, hu⟩ := Statement.ok_of_runNative hn
  have hvars : u.vars = a.world.vars := by
    rw [hu]
    exact ((s.aside_load a.world).rel hr).vars
  refine fun o ho => ⟨h.stands ht hr hn o ho, h.allData StatementData.Shaped.lasting ht id n d ⟨hl, hx⟩ o ho, ?_⟩
  rw [hvars]
  exact ha.suits s hs d (Statement.data?_eq_some.mpr ⟨id, n, hid, hl, hx⟩) o ho

/-- No guard fires while a statement is loaded. -/
lemma Reachable.run_loadGuarded (ht : t.foreign = false) (h : Reachable t a) (ha : a.Suited)
    (hs : .statement s ∈ a.items) : s.loadGuarded.run a.world = s.load.run a.world := by
  refine run_bind_congr rfl fun stmt w hlive => ?_
  obtain ⟨rfl, id, n, hid, hl, rfl⟩ := ok_of_live hlive
  refine run_bind_congr rfl fun count u hrelease => ?_
  refine run_bind_congr rfl fun d w hdata => ?_
  obtain ⟨rfl, hd⟩ := Statement.ok_of_data hdata
  refine run_bind_congr rfl fun _ w hstatus => ?_
  obtain ⟨rfl, hrank⟩ := Statement.ok_of_requireStatus hstatus
  have hfit := (h.fitted_released ht ha hs hid hl hrelease hd hrank).2
  exact run_bind_congr (run_dressed_congr (BindObject.Guarded.run_pushAll hfit d.arraySize)) fun _ _ _ => rfl

/-- A statement that has been prepared can be loaded, when no question about actual lengths is made to fail. -/
lemma Reachable.load_goes (ht : t.foreign = false) (h : Reachable t a) (ha : a.Suited) (hs : .statement s ∈ a.items)
    (hd : s.data? a.world = some d) (hrank : Status.prepared.rank ≤ d.status.rank) (hw : a.world.Willing) :
    ∃ stmt v, s.load.run a.world = (.ok (stmt, d), v) := by
  obtain ⟨id, n, hid, hl, hx⟩ := Statement.data?_eq_some.mp hd
  obtain ⟨count, u, ids, hrelease, hlu, -⟩ := Statement.cleared_releaseResultsets h.fit.sound.forest hid hl
  have hdu : s.data? u = some d := Statement.data?_eq_some.mpr ⟨id, _, hid, hlu, hx⟩
  have hfit := (h.fitted_released ht ha hs hid hl hrelease hdu hrank).2
  have hwilling : u.Willing := (s.steadies_releaseResultsets a.world).rel hrelease hw
  have hgo : Ends s.load a.world fun r _ => r = .ok (n.native, d) := by
    refine Ends.liveOf hid hl (Ends.after hrelease
      (Ends.dataOf hdu (Ends.requireStatus (fun _ => ?_) fun hbelow => ?_)))
    · refine Ends.bind (fun _ _ _ => rfl) fun e v hr => ?_
      obtain ⟨e', hpush, -⟩ := BindObject.error_of_dressed hr
      cases (BindObject.pushAll_goes hfit hwilling d.arraySize).elim hpush
    · exact absurd hbelow (Nat.not_lt.mpr hrank)
  exact ⟨n.native, (s.load.run a.world).2, Prod.ext hgo rfl⟩

/-- What is bound fits. -/
lemma Reachable.fits (ht : t.foreign = false) (h : Reachable t a) (hd : s.data? a.world = some d) {o : BindObject}
    (ho : o ∈ d.binds.objects) : o.Fits := by
  obtain ⟨id, n, -, hl, hx⟩ := Statement.data?_eq_some.mp hd
  exact h.allData StatementData.AllFit.lasting ht id n d ⟨hl, hx⟩ o ho

/-- Transfers between variables and buffers do not fault. -/
structure TransferLaw (a : Application) : Prop where
  /-- All variables of a live statement that has been prepared travel into their buffers: nothing fails on the way, and
  the native library takes each actual length that it is told. -/
  input : ∀ s d, .statement s ∈ a.items → s.data? a.world = some d → Status.prepared.rank ≤ d.status.rank →
    ∃ stmt v, s.load.run a.world = (.ok (stmt, d), v)
  /-- An execution runs as it would with guards before each access, none of which ever fires: each cell is one of the
  object's and lies in the buffer, each element is one of the vector's, and the native library knows each position that
  it is told or asked about and has room for the size. -/
  guarded : ∀ s, .statement s ∈ a.items → s.executeGuarded.run a.world = s.executePrepared.run a.world
  /-- An execution fails because the native execution fails, or else because an element that comes out stands for no
  value: a text that is not UTF-8, or a moment outside the calendar. -/
  output : ∀ s d e w', .statement s ∈ a.items → s.data? a.world = some d → Status.prepared.rank ≤ d.status.rank →
    s.executePrepared.run a.world = (.error e, w') → ∃ stmt v u, s.load.run a.world = (.ok (stmt, d), v) ∧
      (Statement.runNative stmt d.arraySize v = (none, u) ∨
        Statement.runNative stmt d.arraySize v = (some (), u) ∧ ∃ o ∈ d.binds.objects, o.Stuck stmt u e)
  /-- No buffer of what is bound is longer than one can be, and each of its cells ends at an offset that a word can
  hold: binds that would make a longer one overflow. -/
  fits : ∀ s d, .statement s ∈ a.items → s.data? a.world = some d → ∀ o ∈ d.binds.objects,
    o.Fits ∧ ∀ i, i < o.elemCount → (i + 1) * o.elemSize ≤ BindPlan.maxLength

/-- The law of transfers holds along all typed runs, whenever no question about actual lengths is made to fail; any
other primitive may fail. -/
theorem TypedRuns.transferLaw (h : TypedRuns ⟨false, true⟩ start a) (hw : a.world.Willing) : TransferLaw a := by
  have hreach : Reachable ⟨false, true⟩ a := h.runs
  have ha : a.Suited := h.suited rfl
  refine ⟨fun s d hs hd hrank => hreach.load_goes rfl ha hs hd hrank hw, fun s hs => ?_,
    fun s d e w' hs hd hrank hrun => ?_, fun s d hs hd o ho => ?_⟩
  · exact Statement.run_executeGuarded (hreach.run_loadGuarded rfl ha hs) fun stmt d v u hload hn =>
      hreach.fitted_executed rfl ha hs hload hn
  · obtain ⟨stmt, v, hload⟩ := hreach.load_goes rfl ha hs hd hrank hw
    obtain ⟨u, hn, hback⟩ | ⟨u, hn, -⟩ := Statement.run_executePrepared hload hrun
    · have hwilling : u.Willing :=
        Statement.steadies_of_runNative hn ((s.steadies_load a.world).rel hload hw)
      have hstuck := (Statement.unload_fails (hreach.fitted_executed rfl ha hs hload hn) hwilling).elim hback e rfl
      exact ⟨stmt, v, u, hload, .inr ⟨hn, hstuck⟩⟩
    · exact ⟨stmt, v, u, hload, .inl hn⟩
  · have hfit := hreach.fits rfl hd ho
    exact ⟨hfit, fun i hi => hfit.cell_le hi⟩

/-- A vector is bound for an array of three and as a table of two, the array shrinks, the vector grows to four longer
elements, and the hook leaves a byte in the text that is not UTF-8. The elements that take part go in and come out, and
the text alone fails. -/
theorem transferLaw_after_resizing :
    let s : Statement := ⟨0, ⟨0, ⟨some 1⟩⟩, ⟨some 2⟩⟩
    let a := play [.createEnvironment default,
      .environment ⟨0, ⟨some 0⟩⟩ (.connect (.ofPassword "db" "user" "word")), .connection ⟨0, ⟨some 1⟩⟩ (.prepare "q"),
      .newVar (.vector .raw [[1], [2]]), .newVar (.single .string "a"), .statement s (.setArraySize 3),
      .statement s (.bind (.name "r") 0 .both .regular 2), .statement s (.bind (.name "t") 0 .input .table 0),
      .statement s (.bind (.name "s") 1 .output .regular 2), .statement s (.setArraySize 2),
      .setVar 0 (.vector .raw [[1, 2, 3], [], [4], [5]]),
      .library (.onExecute "q" [.writeBytes "r" 2 [6], .writeBytes "s" 1 [0xff]])] start
    TransferLaw a ∧ (s.executePrepared.run a.world).1 = .error (.conversion .string) ∧
      (s.executePrepared.run a.world).2.vars.rows.values.map HostVar.text =
        ["HostVar([[1, 2], [6], [4], [5]])", "HostVar(\"a\")"] := by
  refine ⟨TypedRuns.transferLaw (typedRuns_play ?_ ?_) (by decide +kernel), by decide +kernel, by decide +kernel⟩
  · exact ⟨trivial, by decide +kernel, trivial, by decide +kernel, trivial, by decide +kernel, trivial,
      by decide +kernel, trivial, by decide +kernel, trivial, by decide +kernel, trivial, by decide +kernel, trivial,
      by decide +kernel, trivial, by decide +kernel, trivial, by decide +kernel, trivial, by decide +kernel, trivial,
      by decide +kernel, trivial⟩
  · exact ⟨trivial, trivial, trivial, trivial, trivial, trivial, trivial, trivial, trivial, trivial,
      by
        change Option.all _ _ = true
        decide +kernel,
      trivial, trivial⟩

end Application
end DbClient
