import DbClient.Proofs.Application.Basic
import DbClient.Proofs.Frame.Operations
import DbClient.Proofs.Outcomes

/-! What the operations on a statement do to its data: a preparation resets them, an execution and the settings
change single fields, and a bind adds one object. -/
namespace DbClient
open Act World

/-- The number of variables that can be bound to a statement of an environment. -/
def World.bindLimit (w : World) (env : Nat) : Nat := ((w.envs.get? env).map EnvState.maxBinds).getD 0

/-- The data after an object has been bound. -/
def StatementData.bound (d : StatementData) (o : BindObject) : StatementData :=
  { d with binds := (d.binds.add o d.allowRebinding).2 }

/-- Nothing stands against binding an object. -/
structure StatementData.Admits (d : StatementData) (limit : Nat) (o : BindObject) : Prop where
  stage : Status.prepared.rank ≤ d.status.rank
  free : Statement.bindObstacle? d limit o.name o.ty = none

/-- A relation between tables of variables under which values can come to variables: single values to single
variables, and elements to vectors. -/
structure World.Receives (V : Table HostVar → Table HostVar → Prop) : Prop where
  single : ∀ t x ty y z, t.get? x = some (.single ty y) → V t (t.modify x fun _ => .single ty z)
  element : ∀ t x ty ys i z, t.get? x = some (.vector ty ys) → V t (t.modify x fun _ => .vector ty (ys.set i z))

lemma BindIndex.text_of_toName {index : BindIndex} {name : String} (h : index.toName = .ok name) :
    name = index.text := by
  cases index with
  | name s => exact (Except.ok.inj h).symm
  | position n =>
    by_cases hn : n = 0
    · simp [toName, hn] at h
    · simpa [toName, hn] using h.symm

namespace Statement
variable {w w' : World} {id : Nat} {V : Table HostVar → Table HostVar → Prop}
  {R : StatementData → StatementData → Prop} {s : Statement}

/-- To put data beside a handle touches nothing but its node. -/
lemma fields_putData {i : Nat} {n : Node} {u : World} (hi : s.handle.node = some i) (hl : w.Live i n)
    (hu : u.nodes = w.nodes) (d : StatementData) : (s.putData d u).nodes = w.nodes.modify i (Node.keeping d) ∧
      (s.putData d u).envs = u.envs ∧ (s.putData d u).vars = u.vars ∧ (s.putData d u).library = u.library := by
  have hlu : u.Live i n := ⟨hu ▸ hl.1, hl.2⟩
  rw [putData_of_live hi hlu, nodes_modifyNode, hu]
  exact ⟨rfl, rfl, rfl, rfl⟩

/-! ### Binds -/

/-- An object has been bound under the name that an index stands for, as it was planned. -/
structure Bound (s : Statement) (index : BindIndex) (plan : StatementData → String → BindPlan) (w w' : World)
    (i : Nat) (n : Node) (d : StatementData) (o : BindObject) : Prop where
  handle : s.handle.node = some i
  live : w.Live i n
  keeps : n.Keeps d
  name : index.toName = .ok o.name
  plan : o.toBindPlan = plan d o.name
  admits : d.Admits (w.bindLimit s.env) o
  nodes : w'.nodes = w.nodes.modify i (Node.keeping (d.bound o))
  envs : w'.envs = w.envs
  vars : w'.vars = w.vars

/-- A bind that fails leaves nodes, environments and variables alone, and one that does not has bound an object. -/
theorem ends_bindPlanned (s : Statement) (index : BindIndex) {ty : ValueType}
    {plan : StatementData → String → BindPlan}
    (hplan : ∀ d name, (plan d name).name = name ∧ (plan d name).ty = ty) (w : World) :
    Ends (s.bindPlanned index ty plan) w fun r w' =>
      (∃ e, r = .error e ∧ w'.nodes = w.nodes ∧ w'.envs = w.envs ∧ w'.vars = w.vars) ∨
        ∃ i n d o, r = .ok () ∧ s.Bound index plan w w' i n d o := by
  refine Ends.live (fun i n hi hl => ?_) fun _ => .inl ⟨_, rfl, rfl, rfl, rfl⟩
  refine Ends.ofExcept (fun name hname => ?_) fun _ _ => .inl ⟨_, rfl, rfl, rfl, rfl⟩
  refine Ends.data (fun d hd => ?_) fun _ => .inl ⟨_, rfl, rfl, rfl, rfl⟩
  refine Ends.requireStatus (fun hrank => Ends.get ?_) fun _ => .inl ⟨_, rfl, rfl, rfl, rfl⟩
  have hx : n.Keeps d := keeps_of_data? hi hl hd
  dsimp only
  split
  · exact .inl ⟨_, rfl, rfl, rfl, rfl⟩
  · rename_i hfree
    generalize hp : plan d name = p
    obtain ⟨hpname, hpty⟩ : p.name = name ∧ p.ty = ty := hp ▸ hplan d name
    refine Ends.make (fun _ => ?_) fun _ => .inl ⟨_, rfl, rfl, rfl, rfl⟩
    unfold Ends
    rw [run_bind, undoing, run_tryCatch, run_require]
    rcases Library.bind n.native (BindObject.place p w).1.desc (BindObject.place p w).2.library with ⟨_ | x, l⟩
    · exact .inl ⟨_, rfl, rfl, rfl, rfl⟩
    · obtain ⟨hnodes, henvs, hvars, -⟩ := fields_putData
        (u := { (BindObject.place p w).2 with library := l }.note (.bound n.native name p.ty p.direction)) hi hl rfl
        (d.bound (BindObject.place p w).1)
      subst hpname hpty
      exact .inr ⟨i, n, d, (BindObject.place p w).1, rfl, hi, hl, hx, hname, hp.symm, ⟨hrank, hfree⟩, hnodes, henvs,
        hvars⟩

/-- What is planned for a variable has the name and the type that it should have. -/
lemma planned_ofVar (var : Nat) (direction : Direction) (kind : VectorKind) (size : Nat) (v : HostVar)
    (d : StatementData) (name : String) :
    (BindPlan.ofVar name var direction kind size (max d.arraySize d.initialArraySize) v).name = name ∧
      (BindPlan.ofVar name var direction kind size (max d.arraySize d.initialArraySize) v).ty = v.ty := by
  cases v <;> exact ⟨rfl, rfl⟩

/-- A bind of a variable that there is binds an object for it, or fails and does nothing. -/
theorem ends_bind (s : Statement) (index : BindIndex) {var : Nat} (direction : Direction) (kind : VectorKind)
    (size : Nat) {v : HostVar} (hv : w.vars.get? var = some v) :
    Ends (s.bind index var direction kind size) w fun r w' =>
      (∃ e, r = .error e ∧ w'.nodes = w.nodes ∧ w'.envs = w.envs ∧ w'.vars = w.vars) ∨
        ∃ i n d o, r = .ok () ∧ s.Bound index (fun d name =>
          .ofVar name var direction kind size (max d.arraySize d.initialArraySize) v) w w' i n d o := by
  apply Ends.get
  rw [hv]
  exact s.ends_bindPlanned index (planned_ofVar var direction kind size v) w

/-! ### Changes of the data -/

variable [Std.Refl V] [Std.Refl R]

lemma alters_putData {i : Nat} {n : Node} {c d : StatementData} (hi : s.handle.node = some i) (hl : w.Live i n)
    (hx : n.Keeps c) (hR : i = id → R c d) : Alters V id R w (s.putData d w) := by
  rw [putData_of_live hi hl]
  exact Alters.keeping hl hx hR

variable [IsTrans _ V] [IsTrans _ R]

lemma alters_bind (index : BindIndex) (var : Nat) (direction : Direction) (kind : VectorKind) (size : Nat)
    (hR : s.handle.node = some id → ∀ c o, o.name = index.text → c.Admits (w.bindLimit s.env) o → R c (c.bound o)) :
    Does (Alters V id R) (s.bind index var direction kind size) w := by
  cases hv : w.vars.get? var with
  | none =>
    apply Does.get
    rw [hv]
    exact Does.pure _
  | some v =>
    obtain ⟨e, -, hnodes, henvs, hvars⟩ | ⟨i, n, d, o, -, hb⟩ := s.ends_bind index direction kind size hv
    · exact .of_eq hvars henvs hnodes
    · have hput : Alters V id R w (w.modifyNode i (Node.keeping (d.bound o))) :=
        Alters.keeping hb.live hb.keeps fun he =>
          hR (he ▸ hb.handle) d o (BindIndex.text_of_toName hb.name) hb.admits
      exact hput.trans (.of_eq hb.vars hb.envs hb.nodes)

lemma alters_prepare {mode : PrepareMode} {sql : String} (hR : s.handle.node = some id → ∀ c : StatementData,
      R c (c.reset sql) ∧ R (c.reset sql) { c.reset sql with status := .ofMode mode }) :
    Does (Alters V id R) (s.prepare mode sql) w := by
  refine Does.live fun _ _ _ _ => s.alters_releaseResultsets.seq fun _ v _ => Does.data fun i n d hi hl hx => ?_
  have hclose : Does (Alters V id R) (update fun w => (s.putData (d.reset sql) w).freeBuffers d.binds.buffers) v :=
    (alters_putData hi hl hx fun he => (hR (hi.trans (congrArg some he)) d).1).trans (.of_eq rfl rfl rfl)
  refine hclose.bind fun _ v' hrun _ => (Alters.require _ _).bind fun _ u hrun' _ => ?_
  obtain ⟨-, rfl⟩ := Prod.mk.inj hrun
  obtain ⟨l, -, rfl⟩ := ok_of_require hrun'
  have hlive : World.Live { (s.putData (d.reset sql) v).freeBuffers d.binds.buffers with library := l } i
      (n.keeping (d.reset sql)) := by
    have hkeep : (s.putData (d.reset sql) v).Live i (n.keeping (d.reset sql)) := by
      rw [putData_of_live hi hl]
      exact hl.keeping _
    exact hkeep
  have hnew : Does (Alters V id R) (update (s.putData { d.reset sql with status := .ofMode mode }))
      { (s.putData (d.reset sql) v).freeBuffers d.binds.buffers with library := l } :=
    alters_putData hi hlive rfl fun he => (hR (hi.trans (congrArg some he)) d).2
  exact hnew.seq fun _ _ _ => Alters.note _

lemma loading (stmt : Address) (o : BindObject) : BindObject.Loading (Alters V id R) (fun _ => True) stmt o where
  lasts _ _ _ _ := trivial
  write _ _ _ := .of_eq rfl rfl rfl
  report _ _ _ _ := Alters.require _ _
  note _ n := Alters.note n

lemma unloading (hV : Receives V) (stmt : Address) (arraySize : Nat) (o : BindObject) :
    BindObject.Unloading (Alters V id R) (fun _ => True) stmt arraySize o where
  lasts _ _ _ _ := trivial
  ask _ _ _ _ := (Alters.require _ _).seq fun _ _ _ => Does.pure _
  single _ _ _ _ _ hv := ⟨hV.single _ _ _ _ _ hv, Nat.le_refl _, fun _ _ => rfl, Nat.le_refl _,
    fun _ n d hd => ⟨n, d, hd, refl_of R d⟩⟩
  element _ _ _ _ _ _ hv _ := ⟨hV.element _ _ _ _ _ _ hv, Nat.le_refl _, fun _ _ => rfl, Nat.le_refl _,
    fun _ n d hd => ⟨n, d, hd, refl_of R d⟩⟩
  note _ n := Alters.note n

lemma alters_load (s : Statement) : Does (Alters V id R) s.load w := by
  refine Does.live fun _ n _ _ => s.alters_releaseResultsets.seq fun _ v _ => Does.data fun _ _ d _ _ _ =>
    Does.requireStatus fun _ => ?_
  have hpush : Does (Alters V id R) (d.binds.push n.native d.arraySize) v :=
    BindObject.does_exchangeAll (fun _ _ _ _ => trivial) (fun o _ _ hw => (loading n.native o).push hw d.arraySize)
      trivial
  exact hpush.dressed.seq fun _ _ _ => Does.pure _

lemma alters_executePrepared {hs : Multiset Nat} (hV : Receives V) (hw : Sound hs w) (hR : s.handle.node = some id →
      ∀ c : StatementData, Status.prepared.rank ≤ c.status.rank → R c { c with status := .executed }) :
    Does (Alters V id R) s.executePrepared w := by
  refine s.alters_load.bind fun p v hload _ => ?_
  obtain ⟨stmt, d⟩ := p
  obtain ⟨i, n, hi, hl, rfl, hx, -, hrank⟩ := load_spec hw hload
  dsimp only
  unfold Does
  rw [run_bind, run_modifyGet, runNative]
  rcases Library.execute n.native d.arraySize v.memory v.library with ⟨_ | ⟨results, memory⟩, l⟩
  · exact .of_eq rfl rfl rfl
  · have hnative : Alters V id R v { v with library := l, memory := memory, log := v.log ++ results.map .hook } :=
      .of_eq rfl rfl rfl
    apply hnative.trans
    have htune : Does (Alters V id R) (update (s.putData { d with status := .executed }))
        { v with library := l, memory := memory, log := v.log ++ results.map .hook } :=
      alters_putData hi hl hx fun he => hR (hi.trans (congrArg some he)) d hrank
    have hpull : ∀ u, Does (Alters V id R) (d.binds.pull n.native d.arraySize) u := fun _ =>
      BindObject.does_exchangeAll (fun _ _ _ _ => trivial)
        (fun o _ _ hu => (unloading hV n.native d.arraySize o).pull hu) trivial
    exact htune.seq fun _ u _ => (hpull u).dressed.seq fun _ _ _ => Alters.note _

lemma alters_setArraySize (size : Nat) (hR : s.handle.node = some id → ∀ c : StatementData, ∀ initial,
      Status.prepared.rank ≤ c.status.rank → R c { c with arraySize := size, initialArraySize := initial }) :
    Does (Alters V id R) (s.setArraySize size) w := by
  refine Does.live fun _ _ _ _ => Does.data fun i n d hi hl hx => Does.requireStatus fun hrank => ?_
  dsimp only
  generalize (if d.binds.isEmpty then BindIndex.maxSize else d.initialArraySize) = limit
  split
  · exact Does.throw_bind _
  · refine (Alters.require _ _).bind fun _ u hrun _ => ?_
    obtain ⟨l, -, rfl⟩ := ok_of_require hrun
    exact alters_putData (w := { w with library := l }) hi hl hx fun he =>
      hR (hi.trans (congrArg some he)) d _ hrank

lemma alters_setFetchMode (mode : FetchMode) (hR : s.handle.node = some id → ∀ c : StatementData,
      R c { c with fetchMode := mode }) : Does (Alters V id R) (s.setFetchMode mode) w := by
  refine Does.live fun _ n _ _ => ?_
  have hset : ∀ v, Does (Alters V id R) (do
      Act.require (fun e => e) (Library.setAttr n.native .fetchMode (.bool (mode = .scrollable)))
      let d ← s.data
      Act.update (s.putData { d with fetchMode := mode }) : Act Unit) v := fun v =>
    (Alters.require _ _).seq fun _ _ _ => Does.data fun _ _ d hi hl hx => alters_putData hi hl hx fun he =>
      hR (hi.trans (congrArg some he)) d
  split
  · refine s.conn.alters_serverVersion.seq fun version v _ => ?_
    split
    · exact Does.throw_bind _
    · exact hset v
  · exact hset w

omit [IsTrans _ V] [IsTrans _ R] in
lemma alters_allowRebinding (allow : Bool) (hR : s.handle.node = some id → ∀ c : StatementData,
      R c { c with allowRebinding := allow }) : Does (Alters V id R) (s.allowRebinding allow) w :=
  Does.data fun _ _ d hi hl hx => alters_putData hi hl hx fun he => hR (hi.trans (congrArg some he)) d

end Statement
end DbClient
