import DbClient.Proofs.Application.BindingLaw
import DbClient.Proofs.Bindings.Names
import DbClient.Proofs.Frame.Application
import DbClient.Proofs.Preparation
import DbClient.Proofs.Transfer.Execution

/-! The law of bound names in any application: how the names that are bound to a statement change from one
operation to the next, whatever is bound again, refused or executed in between. -/
namespace DbClient
open Act World

namespace Operation

/-- An operation gives a new text to the statement of a node, or tries to. -/
def Prepares (id : Nat) : Operation → Prop
  | statement s (.prepare _ _) | statement s (.execute _) => s.handle.node = some id
  | _ => False

/-- The name under which an operation binds a variable to the statement of a node, if it does. -/
def boundName? (id : Nat) (w : World) : Operation → Option String
  | statement s (.bind index var direction kind size) =>
    if s.handle.node = some id ∧ (w.vars.get? var).isSome then
      ((s.bind index var direction kind size).run w).1.toOption.map fun _ => index.text
    else none
  | _ => none

end Operation

namespace Application

/-- The names under which a list of operations binds variables to the statement of a node, in order. -/
def boundNames (id : Nat) : List Operation → Application → List String
  | [], _ => []
  | op :: rest, a => (op.boundName? id a.world).toList ++ boundNames id rest (op.after a)

end Application

variable {t : Terms} {a b : Application} {op : Operation} {id : Nat} {m : Node} {e : StatementData}

/-! ### One operation -/

namespace Operation

/-- Besides preparations and binds nothing touches the variables. -/
lemma bears_settled (hp : ¬op.Prepares id) (hb : ∀ s index var direction kind size,
    op = .statement s (.bind index var direction kind size) → s.handle.node ≠ some id) (w : World) :
    op.Bears id StatementData.Settled w := by
  cases op with
  | statement s k =>
    intro hid
    cases k with
    | prepare mode sql => exact absurd hid hp
    | execute sql => exact absurd hid hp
    | bind index var direction kind size => exact absurd hid (hb s index var direction kind size rfl)
    | executePrepared => exact fun _ _ => ⟨rfl, fun _ => rfl⟩
    | setArraySize size => exact fun _ _ _ => ⟨rfl, fun h => h⟩
    | allowRebinding allow => exact fun _ => ⟨rfl, fun h => h⟩
    | setFetchMode mode => exact fun _ => ⟨rfl, fun h => h⟩
    | _ => trivial
  | _ => trivial

lemma boundName?_of_ne (hb : ∀ s index var direction kind size,
    op = .statement s (.bind index var direction kind size) → s.handle.node ≠ some id) (w : World) :
    op.boundName? id w = none := by
  cases op with
  | statement s k =>
    cases k with
    | bind index var direction kind size =>
      exact if_neg fun h => hb s index var direction kind size rfl h.1
    | _ => rfl
  | _ => rfl

end Operation

namespace Application

/-- The data of a statement follow from those before a bind. -/
lemma Reachable.follows_bind (ht : t.foreign = false) (h : Reachable t a) {s : Statement} {index : BindIndex}
    {var : Nat} {direction : Direction} {kind : VectorKind} {size : Nat} (hid : s.handle.node = some id)
    (he : ((s.bind index var direction kind size).run a.world).2.HasData id m e) :
    ∃ n d, a.world.HasData id n d ∧
      d.Follows ((Operation.statement s (.bind index var direction kind size)).boundName? id a.world).toList e := by
  have hnodup : ∀ n d, a.world.HasData id n d → d.binds.names.Nodup := fun n d hd =>
    ((h.bindings ht).stocked id n d hd).names
  have hsame : ∀ {w : World}, w.nodes = a.world.nodes → w.HasData id m e → ∃ n d, a.world.HasData id n d ∧
      d.Follows [] e := by
    intro w hw hd
    have hold : a.world.HasData id m e := ⟨⟨hw ▸ hd.1.1, hd.1.2⟩, hd.2⟩
    exact ⟨m, e, hold, (refl_of StatementData.Settled e).follows (hnodup m e hold)⟩
  unfold Operation.boundName?
  dsimp only
  cases hv : a.world.vars.get? var with
  | none =>
    rw [if_neg (by simp)]
    rw [Statement.bind, run_bind, run_get] at he
    dsimp only at he
    rw [hv] at he
    exact hsame rfl he
  | some v =>
    rw [if_pos ⟨hid, rfl⟩]
    have hends := s.ends_bind index direction kind size hv
    unfold Ends at hends
    obtain ⟨_, herror, hnodes, -⟩ | ⟨i, n, d, o, hok, hb⟩ := hends
    · rw [herror]
      exact hsame hnodes he
    · rw [hok]
      obtain rfl := Option.some.inj (hid.symm.trans hb.handle)
      have hd : a.world.HasData id n d := ⟨hb.live, hb.keeps⟩
      have hnew := he.1.1
      rw [hb.nodes, Table.get?_modify, if_pos rfl, hb.live.1] at hnew
      obtain rfl := Option.some.inj hnew
      obtain rfl : d.bound o = e := Extra.statement.inj (Option.some.inj he.2)
      refine ⟨n, d, hd, ?_⟩
      rw [← show o.name = index.text from BindIndex.text_of_toName hb.name]
      exact hb.admits.follows (hnodup n d hd)

/-- The data of a statement follow from those before an operation that does not prepare it. -/
lemma Reachable.follows_after (ht : t.foreign = false) (h : Reachable t a) (hp : op.Permitted t) (hr : a.Ready op)
    (hno : ¬op.Prepares id) (hid : id < a.world.nodes.next) (he : (op.after a).world.HasData id m e) :
    ∃ n d, a.world.HasData id n d ∧ d.Follows (op.boundName? id a.world).toList e := by
  by_cases hb : ∀ s index var direction kind size,
      op = .statement s (.bind index var direction kind size) → s.handle.node ≠ some id
  · have halters := h.alters (V := Anyhow) (R := StatementData.Settled) ht hp hr receives_anyhow
      (op.sets_anyhow _) (op.bears_settled hno hb _)
    obtain ⟨n, d, hd, hsettled⟩ := halters.data hid m e he
    refine ⟨n, d, hd, ?_⟩
    rw [op.boundName?_of_ne hb]
    exact hsettled.follows ((h.bindings ht).stocked id n d hd).names
  · push Not at hb
    obtain ⟨s, index, var, direction, kind, size, rfl, hnode⟩ := hb
    rw [world_after (f := fun _ => 0) rfl] at he
    exact h.follows_bind ht hnode he

/-! ### Many operations -/

/-- The data of a statement follow from those before any operations that do not prepare it. -/
theorem Reachable.follows_play (ht : t.foreign = false) (h : Reachable t a) {ops : List Operation} (hl : Legal t ops a)
    (hno : ∀ op ∈ ops, ¬op.Prepares id) (hid : id < a.world.nodes.next) (he : (play ops a).world.HasData id m e) :
    ∃ n d, a.world.HasData id n d ∧ d.Follows (boundNames id ops a) e := by
  induction ops generalizing a with
  | nil =>
    exact ⟨m, e, he, (refl_of StatementData.Settled e).follows ((h.bindings ht).stocked id m e he).names⟩
  | cons op rest ih =>
    obtain ⟨hp, hr, hrest⟩ := hl
    have hnext := (h.grows id ht hp hr).nodes
    obtain ⟨n, d, hd, hfollows⟩ := ih (h.next hp hr) hrest (fun op' hop' => hno op' (List.mem_cons_of_mem _ hop'))
      (Nat.lt_of_lt_of_le hid hnext) he
    obtain ⟨n', d', hd', hstep⟩ := h.follows_after ht hp hr (hno op List.mem_cons_self) hid hd
    exact ⟨n', d', hd', hstep.trans hfollows⟩

/-! ### The limit -/

/-- A statement has as many variables as it may have, under different names. -/
structure Within (limit : Nat) (d : StatementData) : Prop where
  names : d.binds.names.Nodup
  size : d.binds.size ≤ limit

lemma within_reset (limit : Nat) (d : StatementData) (sql : String) (status : Status) :
    Within limit { d.reset sql with status := status } := ⟨List.nodup_nil, Nat.zero_le _⟩

/-- Nothing brings a statement beyond its limit. -/
lemma bears_within {limit : Nat} {w : World} (hl : ∀ s k, op = .statement s k → s.handle.node = some id →
    w.bindLimit s.env = limit) : op.Bears id (StatementData.Preserves (Within limit)) w := by
  cases op with
  | statement s k =>
    intro hid
    rw [hl s k rfl hid]
    cases k with
    | prepare mode sql => exact fun c => ⟨fun _ => within_reset limit c sql _, fun _ => within_reset limit c sql _⟩
    | execute sql =>
      exact ⟨fun c => ⟨fun _ => within_reset limit c sql _, fun _ => within_reset limit c sql _⟩,
        fun _ _ h => ⟨h.1, h.2⟩⟩
    | executePrepared => exact fun _ _ h => ⟨h.1, h.2⟩
    | bind index var direction kind size =>
      intro c o _ ho h
      refine ⟨?_, ho.size_le h.names h.size⟩
      rw [show (c.bound o).binds.names = _ from BindsHolder.names_add h.names ho.allowed]
      exact List.nodup_dedup _
    | setArraySize size => exact fun _ _ _ h => ⟨h.1, h.2⟩
    | allowRebinding allow => exact fun _ h => ⟨h.1, h.2⟩
    | setFetchMode mode => exact fun _ h => ⟨h.1, h.2⟩
    | _ => trivial
  | _ => trivial

/-- The environment of a statement at hand exists. -/
lemma Fit.env_lt {s : Statement} (h : a.Fit) (hs : .statement s ∈ a.items) : s.env < a.world.envs.next := by
  have hh : a.world.Housed s.env := (h.housed _ hs).1
  obtain ⟨st, hst⟩ := Option.isSome_iff_exists.mp hh
  obtain ⟨env, henv, -⟩ := Option.map_eq_some_iff.mp hst
  exact h.sound.forest.envs.handed s.env env henv

/-- The limit of an environment does not change. -/
lemma Reachable.limit_after {env : Nat} (ht : t.foreign = false) (h : Reachable t a) (hp : op.Permitted t)
    (hr : a.Ready op) (henv : env < a.world.envs.next) :
    (op.after a).world.bindLimit env = a.world.bindLimit env := by
  unfold World.bindLimit
  rw [(h.grows 0 ht hp hr).limits env henv]

lemma Reachable.limit_runs {env : Nat} (ht : t.foreign = false) (h : Reachable t a) (hr : Runs t a b)
    (henv : env < a.world.envs.next) :
    b.world.bindLimit env = a.world.bindLimit env ∧ a.world.envs.next ≤ b.world.envs.next := by
  induction hr with
  | refl => exact ⟨rfl, Nat.le_refl _⟩
  | @tail c _ hrun hstep ih =>
    have hc : Reachable t c := Relation.ReflTransGen.trans h hrun
    obtain ⟨op, hp, hready, rfl⟩ := hstep
    have hgrows := hc.grows 0 ht hp hready
    exact ⟨(hc.limit_after ht hp hready (Nat.lt_of_lt_of_le henv ih.2)).trans ih.1, Nat.le_trans ih.2 hgrows.envs⟩

theorem Reachable.within (ht : t.foreign = false) (h : Reachable t a) {s : Statement} (hs : .statement s ∈ a.items)
    (hid : s.handle.node = some id) (hd : a.world.HasData id m e) : Within (a.world.bindLimit s.env) e := by
  induction h generalizing s id m e with
  | refl => exact absurd hs (Multiset.notMem_zero _)
  | @tail b _ hrun hstep ih =>
    have hb : Reachable t b := hrun
    have hcarries := hb.carries (Relation.ReflTransGen.single hstep)
    obtain ⟨op, hp, hr, rfl⟩ := hstep
    rcases hb.begins ht hr hs with hold | hnew
    · obtain ⟨i, hi, ⟨n, hn⟩, -⟩ := hb.seated ht s hold
      obtain rfl := Option.some.inj (hid.symm.trans hi)
      have hl := (hcarries.stem id n m hn hd.1).1
      have hlimit : ∀ s' k, op = .statement s' k → s'.handle.node = some id →
          b.world.bindLimit s'.env = b.world.bindLimit s.env := by
        rintro s' k rfl hid'
        rw [(hb.seated ht).env_eq (mem_of_holds (hr.1 _ List.mem_cons_self)) hold hid' hid hl]
      have halters := hb.alters (V := Anyhow) ht hp hr receives_anyhow (op.sets_anyhow _) (bears_within hlimit)
      obtain ⟨n', d, hd', hkept⟩ := halters.data (hb.fit.sound.forest.table.handed id n hn) m e hd
      rw [hb.limit_after ht hp hr (hb.fit.env_lt hold)]
      exact hkept (ih hold hid hd')
    · obtain rfl := Option.some.inj (hid.symm.trans hnew.node)
      have hempty := hnew.empty m e hd
      constructor <;> rw [hempty]
      · exact List.nodup_nil
      · exact Nat.zero_le _

/-! ### Preparations and executions -/

/-- After a preparation nothing is bound. -/
lemma unbound_prepare {s : Statement} {mode : PrepareMode} {sql : String} {w w' : World} {n : Node} {d : StatementData}
    {r : Except ClientError Unit} (hw : w.Forest) (hid : s.handle.node = some id) (hd : w.HasData id n d)
    (hr : (s.prepare mode sql).run w = (r, w')) (he : w'.HasData id m e) : e.binds = .empty := by
  obtain ⟨status, ⟨ids, hl, -⟩, -⟩ := (Statement.ends_prepare hw hid hd.1 hd.2 mode sql).elim hr
  obtain rfl := hl.unique he.1
  obtain rfl : { d.reset sql with status := status } = e := Extra.statement.inj (Option.some.inj he.2)
  rfl

lemma Reachable.unbound_after (ht : t.foreign = false) (h : Reachable t a) (hp : op.Permitted t) (hr : a.Ready op)
    (hprepares : op.Prepares id) (hid : id < a.world.nodes.next) (he : (op.after a).world.HasData id m e) :
    e.binds = .empty := by
  obtain ⟨n, d, hd, -⟩ := (h.grows id ht hp hr).data hid m e he
  have hf := h.fit.sound.forest
  cases op with
  | statement s k =>
    cases k with
    | prepare mode sql =>
      rw [world_after (f := fun _ => 0) rfl] at he
      exact unbound_prepare hf hprepares hd rfl he
    | execute sql =>
      rw [world_after (f := fun _ => 0) rfl, Statement.execute, run_bind] at he
      rcases hrun : (s.prepare .prepare sql).run a.world with ⟨_ | _, v⟩ <;> rw [hrun] at he
      · exact unbound_prepare hf hprepares hd hrun he
      · -- the execution that follows binds nothing
        have hv : Sound a.held v := ((s.course_prepare (t := t) .prepare sql).rel hrun).sound h.fit.sound
        have halters : Alters Anyhow id (StatementData.Preserves fun d => d.binds = .empty) v
            (s.executePrepared.run v).2 := s.alters_executePrepared receives_anyhow hv fun _ _ _ hempty => hempty
        have hgrows : Alters Anyhow id Anyhow a.world v := (s.alters_prepare fun _ _ => ⟨trivial, trivial⟩).rel hrun
        obtain ⟨n', d', hd', hempty⟩ := halters.data (Nat.lt_of_lt_of_le hid hgrows.nodes) m e he
        exact hempty (unbound_prepare hf hprepares hd hrun hd')
    | _ => exact hprepares.elim
  | _ => exact hprepares.elim

/-- A statement that has been executed is in the stage of one. -/
lemma executed_of_ok {hs : Multiset Nat} {s : Statement} {w w' : World} (hw : Sound hs w)
    (h : s.executePrepared.run w = (.ok (), w')) : ∃ d, s.data? w' = some d ∧ d.status = .executed := by
  obtain ⟨⟨stmt, d⟩, v, hload, -⟩ := ok_of_bind h
  obtain ⟨i, n, hi, hl, rfl, -⟩ := Statement.load_spec hw hload
  obtain ⟨u, hnative, hunload⟩ | ⟨_, -, -, e, he⟩ := Statement.run_executePrepared hload h
  · obtain ⟨results, memory, l, -, rfl⟩ := Statement.ok_of_runNative hnative
    obtain ⟨_, u, hput, hrest⟩ := ok_of_bind hunload
    obtain ⟨-, rfl⟩ := Prod.mk.inj hput
    obtain ⟨_, x, hpull, hnote⟩ := ok_of_bind hrest
    obtain ⟨-, rfl⟩ := Prod.mk.inj hnote
    have hlu : World.Live { v with library := l, memory := memory, log := v.log ++ results.map .hook } i n := hl
    rw [Statement.putData_of_live hi hlu] at hpull
    have hq := (d.binds.quiet_pull ⟨i, _, hlu.keeping { d with status := .executed }, rfl⟩ d.arraySize).rel
      (ok_of_dressed hpull)
    have hx : World.Live x i (n.keeping { d with status := .executed }) := by
      rw [hq.live]
      exact hlu.keeping _
    exact ⟨_, Statement.data?_eq_some.mpr ⟨i, _, hi, hx, rfl⟩, rfl⟩
  · cases he

/-- What is bound to a statement, and under which names. -/
structure BindSetLaw (a : Application) : Prop where
  /-- The names of a statement are distinct, -/
  distinct : ∀ s d, .statement s ∈ a.items → s.data? a.world = some d → d.binds.names.Nodup
  /-- and there are no more of them than its environment allows, -/
  bounded : ∀ s d, .statement s ∈ a.items → s.data? a.world = some d → d.binds.size ≤ a.world.bindLimit s.env
  /-- for good. -/
  limit : ∀ s b, .statement s ∈ a.items → Runs ⟨false, true⟩ a b →
    b.world.bindLimit s.env = a.world.bindLimit s.env
  /-- After a preparation, be it refused, there are none. -/
  unbound : ∀ s id op d, .statement s ∈ a.items → s.handle.node = some id → op.Permitted ⟨false, true⟩ → a.Ready op →
    op.Prepares id → s.data? (op.after a).world = some d → d.binds.names = []
  /-- From then to the next preparation no name goes and none changes its type, none comes once the statement is
  executed, and the names lie in the order in which they were bound last. -/
  follows : ∀ s id ops d e, .statement s ∈ a.items → s.handle.node = some id → Legal ⟨false, true⟩ ops a →
    (∀ op ∈ ops, ¬op.Prepares id) → s.data? a.world = some d → s.data? (play ops a).world = some e →
    d.Follows (boundNames id ops a) e
  /-- An execution that succeeds leaves the statement executed. -/
  executed : ∀ (s : Statement) w, s.executePrepared.run a.world = (.ok (), w) →
    ∃ d, s.data? w = some d ∧ d.status = .executed

theorem Reachable.bindSetLaw (h : Reachable ⟨false, true⟩ a) : BindSetLaw a := by
  have hlt : ∀ {s : Statement} {id}, .statement s ∈ a.items → s.handle.node = some id → id < a.world.nodes.next := by
    intro s id hs hid
    obtain ⟨i, hi, ⟨n, hn⟩, -⟩ := h.seated rfl s hs
    obtain rfl := Option.some.inj (hid.symm.trans hi)
    exact h.fit.sound.forest.table.handed id n hn
  have hdata : ∀ {s : Statement} {id d} {w : World}, s.handle.node = some id → s.data? w = some d →
      ∃ n, w.HasData id n d := by
    intro s id d w hid hd
    obtain ⟨i, n, hi, hl, hx⟩ := Statement.data?_eq_some.mp hd
    obtain rfl := Option.some.inj (hid.symm.trans hi)
    exact ⟨n, hl, hx⟩
  refine {
    distinct := fun s d hs hd => ?_
    bounded := fun s d hs hd => ?_
    limit := fun s b hs hb => ?_
    unbound := fun s id op d hs hid hp hr hprepares hd => ?_
    follows := fun s id ops d e hs hid hl hno hd he => ?_
    executed := fun s w hr => executed_of_ok h.fit.sound hr }
  · obtain ⟨id, n, hid, hl, hx⟩ := Statement.data?_eq_some.mp hd
    exact (h.within rfl hs hid ⟨hl, hx⟩).names
  · obtain ⟨id, n, hid, hl, hx⟩ := Statement.data?_eq_some.mp hd
    exact (h.within rfl hs hid ⟨hl, hx⟩).size
  · exact (h.limit_runs rfl hb (h.fit.env_lt hs)).1
  · obtain ⟨n, hn⟩ := hdata hid hd
    rw [h.unbound_after rfl hp hr hprepares (hlt hs hid) hn]
    rfl
  · obtain ⟨m, hm⟩ := hdata hid he
    obtain ⟨n, c, hc, hfollows⟩ := h.follows_play rfl hl hno (hlt hs hid) hm
    obtain ⟨n', hn'⟩ := hdata hid hd
    obtain rfl := hn'.1.unique hc.1
    obtain rfl : d = c := Extra.statement.inj (Option.some.inj (hn'.2.symm.trans hc.2))
    exact hfollows

/-- Two variables are bound, by name and by position, a third one is too many, and the first one is bound again. The
statement is executed, and after that nothing new can be bound. -/
theorem bindSetLaw_after_rebinding :
    let s : Statement := ⟨0, ⟨0, ⟨some 1⟩⟩, ⟨some 2⟩⟩
    let a := play [.createEnvironment { (default : InitParams) with maxBinds := 2 },
      .environment ⟨0, ⟨some 0⟩⟩ (.connect (.ofPassword "db" "user" "word")), .connection ⟨0, ⟨some 1⟩⟩ (.prepare "q"),
      .newVar (.single .bool true)] start
    let ops : List Operation := [.statement s (.bind (.name "x") 0 .input .regular 0),
      .statement s (.bind (.position 1) 0 .input .regular 0), .statement s (.bind (.name "y") 0 .input .regular 0),
      .statement s (.allowRebinding true), .statement s (.bind (.name "x") 0 .input .regular 0),
      .statement s .executePrepared, .statement s (.bind (.name "y") 0 .input .regular 0)]
    BindSetLaw a ∧ Legal ⟨false, true⟩ ops a ∧ boundNames 2 ops a = ["x", ":1", "x"] ∧
      (s.data? (play ops a).world).map (fun d => d.binds.names) = some [":1", "x"] := by
  refine ⟨Reachable.bindSetLaw (runs_play ?_), ?_, by decide +kernel, by decide +kernel⟩
  · exact ⟨trivial, by decide +kernel, trivial, by decide +kernel, trivial, by decide +kernel, trivial,
      by decide +kernel, trivial⟩
  · exact ⟨trivial, by decide +kernel, trivial, by decide +kernel, trivial, by decide +kernel, trivial,
      by decide +kernel, trivial, by decide +kernel, trivial, by decide +kernel, trivial, by decide +kernel, trivial⟩

end Application
end DbClient
