import DbClient.Proofs.Alike.Execution
import DbClient.Proofs.Application.TransferLaw
import DbClient.Proofs.Walk.Aborted

/-! Two runs of an application that makes the same calls, while its variables may hold different values of the same
sorts. As long as a variable holds the same in both when it is bound, the worlds differ in data only, all the time. -/
namespace DbClient
open Act World

variable {t : Terms} {a b : Application} {op op' : Operation} {w w' : World}

/-! ### Operations in two worlds -/

lemma EnvironmentCall.blind_perform (e : Environment) (c : EnvironmentCall) : Act.Blind (c.perform e) := by
  cases c with
  | cleanup => exact (Blind.modifyGet e.blind_cleanup).giving
  | connect params => exact (Connection.blind_connect e.env e.root params).giving
  | allocate kind parent => exact (e.blind_allocate kind _).giving

lemma RegistryCall.alike_perform (env : Nat) (c : RegistryCall) (h : w.Alike w') :
    (c.perform env w).Alike (c.perform env w') := by
  cases c with
  | set key c => exact h.setCallback env key c
  | remove key => exact (blind_removeCallback env key h).2
  | clear => exact h.modifyEnv env _
  | notifyFailover conn event => exact h.notifyFailover env conn event

lemma ConnectionCall.blind_perform (c : Connection) (k : ConnectionCall) : Act.Blind (k.perform c) := by
  cases k with
  | statement => exact (Statement.blind_create c).giving
  | prepare sql => exact (c.blind_prepare sql).giving
  | serverVersion => exact c.blind_serverVersion.giving
  | setTimeouts ts => exact (c.blind_setTimeoutList _).giving
  | breakCall => exact c.blind_breakCall.giving
  | setFailoverHandler handler => exact (c.blind_setFailoverHandler handler).giving

lemma ResultsetCall.blind_perform (rs : Resultset) (k : ResultsetCall) : Act.Blind (k.perform rs) := by
  cases k with
  | next => exact (rs.blind_fetch _).giving
  | prev => exact ((rs.blind_scrolling _).bind fun _ => rs.blind_fetch _).giving
  | first => exact ((rs.blind_scrolling _).bind fun _ => rs.blind_fetch _).giving
  | last => exact ((rs.blind_scrolling _).bind fun _ => rs.blind_fetch _).giving
  | seek mode offset => exact ((rs.blind_scrolling _).bind fun _ => rs.blind_fetch _).giving
  | currentRow => exact rs.blind_currentRow.giving
  | columnCount => exact rs.blind_columnCount.giving
  | get index r => exact (rs.blind_get index r).giving

lemma ItemCall.blind_perform (i : Item) (k : ItemCall) : Act.Blind (k.perform i) := by
  cases k with
  | clone => exact (Blind.modifyGet i.blind_clone).giving
  | drop => exact (Blind.update fun _ _ => i.alike_drop).giving
  | setExtra e => exact (i.wrapper.blind_setExtra e).giving
  | takeExtra ty => exact (Blind.modifyGet (i.wrapper.blind_takeExtra ty)).giving
  | findChild p => exact (Blind.modifyGet (i.wrapper.blind_findChild p)).giving
  | releaseChildren p => exact (Blind.modifyGet (i.wrapper.blind_releaseChildren p)).giving

lemma LibraryCall.alike_perform {k : LibraryCall} (hk : Operation.Permitted t (.library k)) (ht : t.foreign = false)
    {l l' : Library} (h : l.Alike l') : (k.perform l).Alike (k.perform l') := by
  cases k with
  | setServerVersion version => exact { h with serverVersion := rfl }
  | addResultset sql rows =>
    exact { h with scripts := by rw [perform, perform, Library.addResultset, Library.addResultset, h.scripts] }
  | onExecute sql actions =>
    exact { h with hooks := congrArg (fun hooks : Assoc String (List HookAction) => hooks.put sql actions) h.hooks }
  | failNext op e =>
    exact { h with
      failures := congrArg (fun failures : Assoc Primitive NativeError => failures.put op e) h.failures }
  | takeError => exact (Library.blind_takeError h).2
  | foreign f => exact absurd (ht.symm.trans hk) Bool.false_ne_true

/-- A call of a statement agrees, when it executes nothing and a variable that it binds holds the same in both
worlds. -/
lemma StatementCall.agree_perform (s : Statement) {k : StatementCall} (h : w.Alike w') (hk : ¬k.Executes)
    (hb : ∀ index var direction kind size, k = .bind index var direction kind size →
      w'.vars.get? var = w.vars.get? var) : Agree (k.perform s) (k.perform s) w w' := by
  cases k with
  | connection => exact (Blind.modifyGet s.conn.blind_clone).giving h
  | prepare mode sql => exact (s.blind_prepare mode sql).giving h
  | execute sql => exact absurd trivial hk
  | executePrepared => exact absurd trivial hk
  | bind index var direction kind size =>
    exact (s.agree_bind index direction kind size h (hb _ _ _ _ _ rfl)).bind fun _ _ _ _ hv => .pure hv _
  | register name ty maxLength => exact (s.blind_register name ty maxLength).giving h
  | setArraySize size => exact (s.blind_setArraySize size).giving h
  | allowRebinding allow => exact (s.blind_allowRebinding allow).giving h
  | setFetchMode mode => exact (s.blind_setFetchMode mode).giving h
  | affectedRows => exact s.blind_affectedRows.giving h
  | resultset => exact (s.blind_takeResultset _ Library.blind_resultset).giving h
  | nextResultset => exact (s.blind_takeResultset _ Library.blind_nextResultset).giving h
  | releaseResultsets => exact s.blind_releaseResultsets.giving h

namespace World.Alike

/-- Variables are made in both worlds, of the same sort. -/
lemma newVar {v v' : HostVar} (h : w.Alike w') (hs : v'.sort = v.sort) :
    World.Alike { w with vars := w.vars.add v } { w' with vars := w'.vars.add v' } := by
  refine { h with vars := congrArg (· + 1) h.vars, sorts := fun i => ?_ }
  simp only [Table.get?_add, h.vars]
  split
  · exact congrArg some hs
  · exact h.sorts i

/-- A variable gets values of its sort. -/
lemma setVar {i : Nat} {v v' : HostVar} (h : w.Alike w') (hv : Operation.Typed w (.setVar i v))
    (hv' : Operation.Typed w' (.setVar i v')) : (w.setVar i v).Alike (w'.setVar i v') := by
  have hsort := h.sorts i
  cases hi : w.vars.get? i with
  | none =>
    have hi' : w'.vars.get? i = none := by simpa [hi] using hsort
    refine { h with vars := by simpa [World.setVar] using h.vars, sorts := fun x => ?_ }
    simp only [World.setVar, Table.get?_modify]
    split
    · rename_i he
      rw [← he, hi, hi']
      rfl
    · exact h.sorts x
  | some old =>
    obtain ⟨old', hi', hsame⟩ := Option.map_eq_some_iff.mp (hsort.trans (congrArg _ hi))
    refine { h with vars := by simpa [World.setVar] using h.vars, sorts := fun x => ?_ }
    rw [get?_setVar hi, get?_setVar hi']
    have hnew : v.sort = old.sort := by simpa [Operation.Typed, hi] using hv
    have hnew' : v'.sort = old'.sort := by simpa [Operation.Typed, hi'] using hv'
    split
    · exact congrArg some (hnew'.trans (hsame.trans hnew.symm))
    · exact h.sorts x

end World.Alike

namespace Operation

/-- Two operations that are the same, but for the value that they give a variable. -/
inductive Twin : Operation → Operation → Prop
  | same (op : Operation) : Twin op op
  | newVar {v v' : HostVar} (sort : v'.sort = v.sort) : Twin (.newVar v) (.newVar v')
  | setVar (id : Nat) (v v' : HostVar) : Twin (.setVar id v) (.setVar id v')

/-- What an operation has to see in two worlds to do the same in both: a variable that it binds holds the same, and if
it executes a statement, no question about actual lengths is made to fail. -/
def SeesSame (w w' : World) : Operation → Prop
  | statement _ (.bind _ var _ _ _) => w'.vars.get? var = w.vars.get? var
  | statement _ k => k.Executes → w.Willing
  | _ => True

lemma SeesSame.willing {s : Statement} {k : StatementCall} (h : (statement s k).SeesSame w w') (hk : k.Executes) :
    w.Willing := by
  cases k with
  | execute sql => exact h hk
  | executePrepared => exact h hk
  | _ => exact hk.elim

/-- An operation agrees with its twin, unless it executes a statement. -/
lemma Twin.agree (h : op.Twin op') (ht : t.foreign = false) (hp : op.Permitted t) (hw : w.Alike w') (hty : op.Typed w)
    (hty' : op'.Typed w') (hx : ∀ s k, op = .statement s k → ¬k.Executes) (hs : op.SeesSame w w') :
    Agree op.perform op'.perform w w' := by
  cases h with
  | newVar sort => exact ⟨rfl, hw.newVar sort⟩
  | setVar id v v' => exact ⟨rfl, hw.setVar hty hty'⟩
  | same op =>
    cases op with
    | createEnvironment params => exact (Environment.blind_create params).giving hw
    | environment e c => exact c.blind_perform e hw
    | registry env c => exact (Blind.update fun _ _ => c.alike_perform env).giving hw
    | wrap env native kind parent owned onRelease =>
      refine Agree.get ?_
      rw [hw.envs]
      split
      · exact .pure hw _
      · exact (Wrapper.blind_wrap _ _ _ _ _ _).giving hw
    | connection c k => exact k.blind_perform c hw
    | statement s k =>
      refine StatementCall.agree_perform s hw (hx s k rfl) fun index var direction kind size he => ?_
      subst he
      exact hs
    | resultset rs k => exact k.blind_perform rs hw
    | item i k => exact k.blind_perform i hw
    | release h => exact (Blind.update fun _ _ => h.alike_drop).giving hw
    | newVar v => exact ⟨rfl, hw.newVar rfl⟩
    | setVar id v => exact ⟨rfl, hw.setVar hty hty'⟩
    | library k => exact ⟨rfl, hw.ofLibrary (LibraryCall.alike_perform hp ht hw.library)⟩
    | note n => exact (Blind.note n).giving hw

lemma Twin.spends (h : op.Twin op') : op'.spends = op.spends := by
  cases h <;> rfl

end Operation

namespace Application
variable {s : Statement} {k : StatementCall} {α : Type} {act : Act α}

/-! ### Executions -/

/-- A statement that is found ready can be loaded, when no question about actual lengths is made to fail. -/
lemma Reachable.vetted_goes (ht : t.foreign = false) (h : Reachable t a) (ha : a.Suited) (hs : .statement s ∈ a.items)
    (hw : a.world.Willing) {p : Address × StatementData} {u : World} (hr : s.vet.run a.world = (.ok p, u)) :
    ∃ v, s.load.run a.world = (.ok p, v) := by
  obtain ⟨hd, hrank⟩ := Statement.ok_of_vet h.fit.sound.forest hr
  obtain ⟨stmt, v, hload⟩ := h.load_goes ht ha hs hd hrank hw
  obtain ⟨u', hvet, -⟩ := Statement.ok_of_load hload hw
  obtain ⟨hp, -⟩ := Prod.mk.inj (hr.symm.trans hvet)
  exact ⟨v, by rw [hload, hp]⟩

/-- Two applications that hold the same objects, in worlds that differ in data only. -/
structure Alike (a b : Application) : Prop where
  world : a.world.Alike b.world
  items : b.items = a.items

lemma TypedRuns.next (h : TypedRuns t start a) (hp : op.Permitted t) (hr : a.Ready op) (hty : op.Typed a.world) :
    TypedRuns t start (op.after a) :=
  Relation.ReflTransGen.tail h ⟨op, hp, hr, hty, rfl⟩

/-- An operation that gives the application nothing. -/
lemma items_after (h : op.perform = act >>= fun _ => pure 0) : (op.after a).items = a.items - op.spends := by
  unfold Operation.after
  rw [h, run_bind]
  rcases act.run a.world with ⟨_ | _, _⟩ <;> exact Multiset.zero_add _

namespace Alike

lemma after (h : Agree op.perform op'.perform a.world b.world) (hitems : b.items = a.items)
    (hspends : op'.spends = op.spends) : (op.after a).Alike (op'.after b) := by
  obtain ⟨h1, h2⟩ := h
  refine ⟨h2, ?_⟩
  change ((op'.perform.run b.world).1.toOption.getD 0) + (b.items - op'.spends) = _
  rw [h1, hitems, hspends]
  rfl

lemma symm (h : a.Alike b) : b.Alike a := ⟨h.world.symm, h.items.symm⟩

/-- A statement that is loaded in one application is loaded in the other. -/
lemma load (h : a.Alike b) (ht : t.foreign = false) (hb : TypedRuns t start b) (hs : .statement s ∈ a.items)
    (hw : a.world.Willing) {p : Address × StatementData} {v : World} (hr : s.load.run a.world = (.ok p, v)) :
    ∃ v', s.load.run b.world = (.ok p, v') ∧ v.Nearly v' := by
  have hreach : Reachable t b := hb.runs
  obtain ⟨u, hvet, -⟩ := Statement.ok_of_load hr hw
  obtain ⟨h1, -⟩ := s.blind_vet h.world
  rw [hvet] at h1
  have hvet' : s.vet.run b.world = (.ok p, (s.vet.run b.world).2) := Prod.ext h1 rfl
  obtain ⟨v', hr'⟩ := hreach.vetted_goes ht (hb.suited ht) (h.items ▸ hs) (h.world.nearly.willing hw) hvet'
  exact ⟨v', hr', (Statement.load_alike h.world hw hr hr').2⟩

lemma executePrepared (h : a.Alike b) (ht : t.foreign = false) (ha : TypedRuns t start a) (hb : TypedRuns t start b)
    (hs : .statement s ∈ a.items) (hw : a.world.Willing) :
    (s.executePrepared.run a.world).2.Alike (s.executePrepared.run b.world).2 := by
  have hreach : Reachable t a := ha.runs
  have hreach' : Reachable t b := hb.runs
  exact Statement.alike_executePrepared h.world hw
    (fun _ _ hr => hreach.vetted_goes ht (ha.suited ht) hs hw hr)
    fun _ _ hr => hreach'.vetted_goes ht (hb.suited ht) (h.items ▸ hs) (h.world.nearly.willing hw) hr

/-- To execute a statement leaves applications alike. A text that is given is given to the statement before: the
application in between is one that the first half alone leads to. -/
theorem executes (h : a.Alike b) (ht : t.foreign = false) (ha : TypedRuns t start a) (hb : TypedRuns t start b)
    (hr : a.Ready (.statement s k)) (hk : k.Executes) (hw : a.world.Willing) :
    (Operation.after (.statement s k) a).Alike (Operation.after (.statement s k) b) := by
  have hs : .statement s ∈ a.items := mem_of_holds (hr.1 _ List.mem_cons_self)
  have hr' : b.Ready (.statement s k) := by
    unfold Ready Holds
    rw [h.items]
    exact hr
  cases k with
  | executePrepared =>
    refine ⟨?_, ?_⟩
    · rw [world_after (f := fun _ => 0) rfl, world_after (f := fun _ => 0) rfl]
      exact h.executePrepared ht ha hb hs hw
    · rw [items_after rfl, items_after rfl, h.items]
  | execute sql =>
    refine ⟨?_, by rw [items_after rfl, items_after rfl, h.items]⟩
    rw [world_after (f := fun _ => 0) rfl, world_after (f := fun _ => 0) rfl, Statement.execute, run_bind, run_bind]
    have hmid : (Operation.after (.statement s (.prepare .prepare sql)) a).Alike
        (Operation.after (.statement s (.prepare .prepare sql)) b) :=
      .after ((s.blind_prepare .prepare sql).giving h.world) h.items rfl
    have hmida : TypedRuns t start (Operation.after (.statement s (.prepare .prepare sql)) a) :=
      ha.next trivial hr trivial
    have hmidb : TypedRuns t start (Operation.after (.statement s (.prepare .prepare sql)) b) :=
      hb.next trivial hr' trivial
    have hheld : .statement s ∈ (Operation.after (.statement s (.prepare .prepare sql)) a).items := by
      rw [items_after rfl]
      exact (Multiset.sub_zero a.items).symm ▸ hs
    have hexec := hmid.executePrepared ht hmida hmidb hheld
    rw [world_after (f := fun _ => 0) rfl, world_after (f := fun _ => 0) rfl] at hexec
    obtain ⟨h1, h2⟩ := s.blind_prepare .prepare sql h.world
    have hsteady := s.steadies_prepare (p := .dataSize) .prepare sql a.world
    rcases hp : (s.prepare .prepare sql).run a.world with ⟨e | _, v⟩ <;>
      rcases hp' : (s.prepare .prepare sql).run b.world with ⟨e' | _, v'⟩ <;> rw [hp, hp'] at h1 h2
    · exact h2
    · cases h1
    · cases h1
    · rw [hp, hp'] at hexec
      exact hexec (hsteady.rel hp hw)
  | _ => exact hk.elim

end Alike

/-! ### Runs -/

/-- Two applications take a step together: each can, and the operations are twins that see the same. -/
structure Together (t : Terms) (a b : Application) (op op' : Operation) : Prop where
  twin : op.Twin op'
  first : op.Permitted t ∧ a.Ready op ∧ op.Typed a.world
  second : op'.Permitted t ∧ b.Ready op' ∧ op'.Typed b.world
  sees : op.SeesSame a.world b.world

lemma Together.same (hp : op.Permitted t) (hr : a.Ready op) (hty : op.Typed a.world)
    (hs : op.SeesSame a.world a.world) : Together t a a op op :=
  ⟨.same op, ⟨hp, hr, hty⟩, ⟨hp, hr, hty⟩, hs⟩

/-- A variable gets a value of its sort in both applications, perhaps not the same. -/
lemma Together.setVar {i : Nat} {v v' : HostVar} (hv : Operation.Typed a.world (.setVar i v))
    (hv' : Operation.Typed b.world (.setVar i v')) : Together t a b (.setVar i v) (.setVar i v') :=
  ⟨.setVar i v v', ⟨trivial, ⟨nofun, Multiset.zero_le _⟩, hv⟩, ⟨trivial, ⟨nofun, Multiset.zero_le _⟩, hv'⟩, trivial⟩

/-- Two runs that take all their steps together. -/
inductive TwinRuns (t : Terms) : Application → Application → Prop
  | empty : TwinRuns t start start
  | step {a b : Application} {op op' : Operation} (runs : TwinRuns t a b) (together : Together t a b op op') :
      TwinRuns t (op.after a) (op'.after b)

namespace TwinRuns

lemma first (h : TwinRuns t a b) : TypedRuns t start a := by
  induction h with
  | empty => exact Relation.ReflTransGen.refl
  | step _ together ih =>
    obtain ⟨hp, hr, hty⟩ := together.first
    exact ih.next hp hr hty

lemma second (h : TwinRuns t a b) : TypedRuns t start b := by
  induction h with
  | empty => exact Relation.ReflTransGen.refl
  | step _ together ih =>
    obtain ⟨hp, hr, hty⟩ := together.second
    exact ih.next hp hr hty

/-- After the same calls two applications hold the same objects, in worlds that differ in data only. -/
theorem alike (ht : t.foreign = false) (h : TwinRuns t a b) : a.Alike b := by
  induction h with
  | empty => exact ⟨.refl _, rfl⟩
  | @step a b op op' runs together ih =>
    obtain ⟨hp, hr, hty⟩ := together.first
    by_cases hx : ∃ s k, op = .statement s k ∧ k.Executes
    · obtain ⟨s, k, rfl, hk⟩ := hx
      cases together.twin
      exact ih.executes ht runs.first runs.second hr hk (together.sees.willing hk)
    · have hno : ∀ s k, op = .statement s k → ¬k.Executes := fun s k he hk => hx ⟨s, k, he, hk⟩
      exact .after (together.twin.agree ht hp ih.world hty together.second.2.2 hno together.sees) ih.items
        together.twin.spends

end TwinRuns

/-- The pairs of operations of two lists can be performed together when their turn comes. -/
def AllTogether (t : Terms) : List Operation → List Operation → Application → Application → Prop
  | op :: rest, op' :: rest', a, b => Together t a b op op' ∧ AllTogether t rest rest' (op.after a) (op'.after b)
  | [], [], _, _ => True
  | _, _, _, _ => False

theorem twinRuns_play {ops ops' : List Operation} (h : TwinRuns t a b) (hall : AllTogether t ops ops' a b) :
    TwinRuns t (play ops a) (play ops' b) := by
  induction ops generalizing a b ops' with
  | nil =>
    cases ops' with
    | nil => exact h
    | cons => exact hall.elim
  | cons op rest ih =>
    cases ops' with
    | nil => exact hall.elim
    | cons op' rest' =>
      obtain ⟨htogether, hrest⟩ := hall
      change TwinRuns t (play rest (op.after a)) (play rest' (op'.after b))
      exact ih (.step h htogether) hrest

end Application
end DbClient
