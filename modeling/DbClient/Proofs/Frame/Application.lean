import DbClient.Proofs.Application.OwnershipLaw
import DbClient.Proofs.Frame.Creation
import DbClient.Proofs.Ownership.Lineage

/-! The frame of an operation of an application. The data of a statement are changed by the calls of that statement
only, and variables only by the application and by executions. -/
namespace DbClient
open Act World

variable {w w' : World} {id : Nat} {V : Table HostVar → Table HostVar → Prop}
  {R : StatementData → StatementData → Prop} {t : Terms}

/-- What a call can do to the data of its statement is allowed. Besides the texts of the operations this is what
is known of the data when they are changed. -/
def StatementCall.Bears (R : StatementData → StatementData → Prop) (limit : Nat) : StatementCall → Prop
  | prepare mode sql => ∀ c, R c (c.reset sql) ∧ R (c.reset sql) { c.reset sql with status := .ofMode mode }
  | execute sql => (∀ c, R c (c.reset sql) ∧ R (c.reset sql) { c.reset sql with status := .ofMode .prepare }) ∧
      ∀ c, Status.prepared.rank ≤ c.status.rank → R c { c with status := .executed }
  | executePrepared => ∀ c, Status.prepared.rank ≤ c.status.rank → R c { c with status := .executed }
  | bind index _ _ _ _ => ∀ c o, o.name = index.text → c.Admits limit o → R c (c.bound o)
  | setArraySize size => ∀ c initial, Status.prepared.rank ≤ c.status.rank →
      R c { c with arraySize := size, initialArraySize := initial }
  | allowRebinding allow => ∀ c, R c { c with allowRebinding := allow }
  | setFetchMode mode => ∀ c, R c { c with fetchMode := mode }
  | _ => True

namespace Operation

/-- What an operation can do to the data beside a node is allowed. -/
def Bears (id : Nat) (R : StatementData → StatementData → Prop) (w : World) : Operation → Prop
  | statement s k => s.handle.node = some id → k.Bears R (w.bindLimit s.env)
  | _ => True

/-- What the application does to the variables is allowed. -/
def Sets (V : Table HostVar → Table HostVar → Prop) (w : World) : Operation → Prop
  | newVar v => V w.vars (w.vars.add v)
  | setVar i v => V w.vars (w.vars.modify i fun _ => v)
  | _ => True

end Operation

/-! ### Calls -/

/-- What a call gives to the application does not matter. -/
lemma Act.Does.giving {α β : Type} {S : World → World → Prop} {a : Act α} {f : α → β} (h : Does S a w) :
    Does S (a >>= fun x => Pure.pure (f x)) w := by
  unfold Does at h ⊢
  rw [run_bind]
  rcases hr : a.run w with ⟨_ | _, _⟩ <;> rw [hr] at h <;> exact h

section
variable [Std.Refl V] [Std.Refl R]

lemma RegistryCall.alters (env : Nat) (k : RegistryCall) (w : World) : Alters V id R w (k.perform env w) := by
  cases k with
  | set key c => exact Alters.setCallback env key c w
  | remove key => exact Alters.removeCallback env key w
  | clear => exact Alters.clearCallbacks env w
  | notifyFailover conn event => exact Alters.notifyFailover env conn event w

variable [IsTrans _ V] [IsTrans _ R]

lemma EnvironmentCall.alters (e : Environment) (k : EnvironmentCall) : Does (Alters V id R) (k.perform e) w := by
  cases k with
  | cleanup => exact Does.giving (a := modifyGet e.cleanup) (e.alters_cleanup w)
  | connect params => exact Does.giving (Connection.alters_connect e.env e.root params)
  | allocate kind parent => exact Does.giving (e.alters_allocate kind _)

lemma ConnectionCall.alters {c : Connection} (hw : w.Forest) (how : Owns t w) (he : w.Housed c.env)
    (k : ConnectionCall) : Does (Alters V id R) (k.perform c) w := by
  cases k with
  | statement => exact Does.giving (Statement.alters_create c hw how he)
  | prepare sql => exact Does.giving (c.alters_prepare sql hw how he)
  | serverVersion => exact Does.giving c.alters_serverVersion
  | setTimeouts ts => exact Does.giving (c.alters_setTimeouts ts)
  | breakCall =>
    have h : Does (Alters V id R) c.breakCall w := Does.live fun _ _ _ _ => Alters.require _ _
    exact Does.giving h
  | setFailoverHandler handler =>
    have h : Does (Alters V id R) (c.setFailoverHandler handler) w := Does.live fun _ n _ _ =>
      Alters.setCallback c.env n.native (handler.map .failover) w
    exact Does.giving h

lemma StatementCall.alters {hs : Multiset Nat} {s : Statement} (hw : Sound hs w) (hV : Receives V) (k : StatementCall)
    (hk : s.handle.node = some id → k.Bears R (w.bindLimit s.env)) : Does (Alters V id R) (k.perform s) w := by
  cases k with
  | connection => exact Does.giving (a := modifyGet s.conn.clone) (s.conn.handle.alters_clone w)
  | prepare mode sql => exact Does.giving (s.alters_prepare hk)
  | execute sql =>
    have hrun : Does (Alters V id R) (s.execute sql) w := by
      refine (s.alters_prepare fun hid => (hk hid).1).bind fun _ v hprepare _ => ?_
      exact s.alters_executePrepared hV (((s.course_prepare (t := ⟨false, false⟩) .prepare sql).rel hprepare).sound hw)
        fun hid => (hk hid).2
    exact Does.giving hrun
  | executePrepared => exact Does.giving (s.alters_executePrepared hV hw hk)
  | bind index var direction kind size => exact Does.giving (s.alters_bind index var direction kind size hk)
  | register name ty maxLength => exact Does.giving (s.alters_register name ty maxLength)
  | setArraySize size => exact Does.giving (s.alters_setArraySize size hk)
  | allowRebinding allow => exact Does.giving (s.alters_allowRebinding allow hk)
  | setFetchMode mode => exact Does.giving (s.alters_setFetchMode mode hk)
  | affectedRows => exact Does.giving s.alters_affectedRows
  | resultset => exact Does.giving (s.alters_takeResultset _ _)
  | nextResultset => exact Does.giving (s.alters_takeResultset _ _)
  | releaseResultsets => exact Does.giving s.alters_releaseResultsets

lemma ResultsetCall.alters (rs : Resultset) (k : ResultsetCall) : Does (Alters V id R) (k.perform rs) w := by
  cases k with
  | next => exact Does.giving (rs.alters_fetch _)
  | prev => exact Does.giving (a := rs.prev) (rs.alters_scrolling (f := fun _ => rs.fetch .prev) _ (rs.alters_fetch _))
  | first =>
    exact Does.giving (a := rs.first) (rs.alters_scrolling (f := fun _ => rs.fetch .first) _ (rs.alters_fetch _))
  | last => exact Does.giving (a := rs.last) (rs.alters_scrolling (f := fun _ => rs.fetch .last) _ (rs.alters_fetch _))
  | seek mode offset =>
    exact Does.giving (a := rs.seek mode offset) (rs.alters_scrolling (f := fun _ => rs.fetch _) _ (rs.alters_fetch _))
  | currentRow =>
    have h : Does (Alters V id R) rs.currentRow w := Does.live fun _ _ _ _ => Does.get (Alters.require _ _)
    exact Does.giving h
  | columnCount => exact Does.giving rs.alters_columnCount
  | get index r =>
    have h : Does (Alters V id R) (rs.get index r) w :=
      (rs.alters_column index).seq fun _ _ _ => Does.ofExcept _
    exact Does.giving h

namespace Item

lemma alters_drop (i : Item) (w : World) : Alters V id R w (i.drop w) := by
  cases i with
  | environment e => exact (e.alters_cleanup w).trans (Alters.drop _ _)
  | connection c => exact Alters.drop _ w
  | statement s => exact s.alters_drop w
  | resultset rs => exact Alters.drop _ w
  | handle h => exact Alters.drop _ w

omit [IsTrans _ V] [IsTrans _ R] in
lemma alters_clone (i : Item) (w : World) : Alters V id R w (i.clone w).2 := by
  cases i <;> exact Wrapper.alters_clone _ w

end Item

lemma ItemCall.alters (i : Item) (k : ItemCall) (hk : Operation.Permitted t (.item i k)) :
    Does (Alters V id R) (k.perform i) w := by
  cases k with
  | clone => exact Does.giving (a := modifyGet i.clone) (i.alters_clone w)
  | drop => exact Does.giving (a := update i.drop) (i.alters_drop w)
  | setExtra e => exact Does.giving (i.wrapper.alters_setExtra hk)
  | takeExtra ty => exact Does.giving (a := modifyGet (i.wrapper.takeExtra ty)) (i.wrapper.alters_takeExtra ty w)
  | findChild p => exact Does.giving (a := modifyGet (i.wrapper.findChild p)) (i.wrapper.alters_findChild p w)
  | releaseChildren p =>
    exact Does.giving (a := modifyGet (i.wrapper.releaseChildren p)) (Alters.releasing.releaseChildren i.wrapper p w)

/-! ### Operations -/

/-- The frame of an operation. -/
theorem Operation.alters {hs : Multiset Nat} {op : Operation} (hp : op.Permitted t) (hu : ∀ i ∈ op.uses, i.Housed w)
    (hw : Sound hs w) (how : Owns t w) (hV : Receives V) (hv : op.Sets V w) (hR : op.Bears id R w) :
    Does (Alters V id R) op.perform w := by
  cases op with
  | createEnvironment params => exact Does.giving (Environment.alters_create params)
  | environment e k => exact k.alters e
  | registry env k => exact Does.giving (a := update (k.perform env)) (k.alters env w)
  | wrap env native kind parent owned onRelease =>
    apply Does.get
    split
    · exact Does.pure _
    · exact Does.giving (Wrapper.alters_wrap _ _ _ _ _ _)
  | connection c k => exact k.alters hw.forest how (hu (.connection c) List.mem_cons_self)
  | statement s k => exact k.alters hw hV hR
  | resultset rs k => exact k.alters rs
  | item i k => exact k.alters i hp
  | release h => exact Does.giving (a := update h.drop) (Alters.drop h w)
  | newVar v =>
    have hnew : Alters V id R w { w with vars := w.vars.add v } :=
      ⟨hv, Nat.le_refl _, fun _ _ => rfl, Nat.le_refl _, fun _ n d hd => ⟨n, d, hd, refl_of R d⟩⟩
    exact Does.giving (a := update fun w => { w with vars := w.vars.add v }) hnew
  | setVar i v =>
    have hset : Alters V id R w (w.setVar i v) :=
      ⟨hv, Nat.le_refl _, fun _ _ => rfl, Nat.le_refl _, fun _ n d hd => ⟨n, d, hd, refl_of R d⟩⟩
    exact Does.giving (a := update (World.setVar i v)) hset
  | library k => exact Alters.of_eq rfl rfl rfl
  | note n => exact Does.giving (Alters.note n)

end

/-! ### New statements -/

lemma Act.ok_of_giving {α β : Type} {a : Act α} {f : α → β} {y : β}
    (h : (a >>= fun x => pure (f x)).run w = (.ok y, w')) : ∃ x, a.run w = (.ok x, w') ∧ y = f x := by
  obtain ⟨x, v, ha, hend⟩ := ok_of_bind h
  obtain ⟨hy, rfl⟩ := Prod.mk.inj hend
  exact ⟨x, ha, (Except.ok.inj hy).symm⟩

/-- A statement has been made: it has a node of its own in its environment, and nothing is bound to it. -/
structure World.Begins (w : World) (s : Statement) (w' : World) : Prop where
  node : s.handle.node = some w.nodes.next
  there : ∃ n, w'.nodes.get? w.nodes.next = some n
  seat : ∀ n, w'.Live w.nodes.next n → n.env = s.env ∧ n.owned = true
  empty : ∀ n d, w'.HasData w.nodes.next n d → d.binds = .empty

/-- Data that have a property keep it. -/
def StatementData.Preserves (P : StatementData → Prop) (c d : StatementData) : Prop := P c → P d

instance {P : StatementData → Prop} : Std.Refl (StatementData.Preserves P) := ⟨fun _ h => h⟩

instance {P : StatementData → Prop} : IsTrans StatementData (StatementData.Preserves P) :=
  ⟨fun _ _ _ h h' hc => h' (h hc)⟩

/-- What may change in any way. -/
def Anyhow {α : Type} (_ _ : α) : Prop := True

instance {α : Type} : Std.Refl (Anyhow (α := α)) := ⟨fun _ => trivial⟩

instance {α : Type} : IsTrans α Anyhow := ⟨fun _ _ _ _ _ => trivial⟩

lemma World.receives_anyhow : Receives Anyhow := ⟨fun _ _ _ _ _ _ => trivial, fun _ _ _ _ _ _ _ => trivial⟩

lemma Operation.sets_anyhow (op : Operation) (w : World) : op.Sets Anyhow w := by
  cases op <;> trivial

lemma Operation.bears_anyhow (op : Operation) (w : World) : op.Bears id Anyhow w := by
  cases op with
  | statement s k =>
    intro _
    cases k with
    | prepare mode sql => exact fun _ => ⟨trivial, trivial⟩
    | execute sql => exact ⟨fun _ => ⟨trivial, trivial⟩, fun _ _ => trivial⟩
    | executePrepared => exact fun _ _ => trivial
    | bind index var direction kind size => exact fun _ _ _ _ => trivial
    | setArraySize size => exact fun _ _ _ => trivial
    | allowRebinding allow => exact fun _ => trivial
    | setFetchMode mode => exact fun _ => trivial
    | _ => trivial
  | _ => trivial

lemma Statement.created_of_create {conn : Connection} {s : Statement} (hw : w.Forest) (how : Owns t w)
    (he : w.Housed conn.env) (hr : (create conn).run w = (.ok s, w')) : Created conn w s w' :=
  ((ends_create (V := Anyhow) (R := Anyhow) 0 conn hw how he).elim hr).2 s rfl

lemma Statement.Created.begins {conn : Connection} {s : Statement} (h : Created conn w s w') : w.Begins s w' := by
  obtain ⟨n, hl, hx, he, ho⟩ := h.data
  refine ⟨h.node, ⟨n, hl.1⟩, fun m hm => ?_, fun m d hd => ?_⟩
  · obtain rfl := hm.unique hl
    exact ⟨he.trans h.env.symm, ho⟩
  · obtain rfl := hd.1.unique hl
    obtain rfl : StatementData.fresh = d := Extra.statement.inj (Option.some.inj (hx.symm.trans hd.2))
    rfl

lemma Connection.begins_prepare {hs : Multiset Nat} {c : Connection} {sql : String} {s : Statement} (hw : Sound hs w)
    (how : Owns t w) (he : w.Housed c.env) (hr : (c.prepare sql).run w = (.ok s, w')) : w.Begins s w' := by
  obtain ⟨s', v, hcreate, hrest⟩ := ok_of_bind hr
  obtain ⟨_, v', hundo, hend⟩ := ok_of_bind hrest
  obtain ⟨h1, rfl⟩ := Prod.mk.inj hend
  obtain rfl := Except.ok.inj h1
  have hprepare := ok_of_undoing hundo
  have hmade := Statement.created_of_create hw.forest how he hcreate
  have hpath := Statement.takes_create (t := t) c he hw
  rw [hcreate] at hpath
  have hv : Sound (s'.points + hs) v := Path.sound hpath hw
  have hcourse : Course t (s'.points + hs) v v' := (s'.course_prepare .prepare sql).rel hprepare
  have hcarries : Carries v v' := Path.carries (hcourse hv) hv
  obtain ⟨n, hl, hx, henv, ho⟩ := hmade.data
  refine ⟨hmade.node, hcarries.there _ n hl.1, fun m hm => ?_, fun m d hd => ?_⟩
  · have hstem := (hcarries.stem _ n m hl.1 hm).2
    have hsame := congrArg Node.env hstem
    exact ⟨Eq.trans hsame (henv.trans hmade.env.symm), (Node.of_stem hstem).2.2.1.trans ho⟩
  · have halters : Alters Anyhow w.nodes.next (StatementData.Preserves fun d => d.binds = .empty) v v' :=
      (s'.alters_prepare fun _ _ => ⟨fun _ => rfl, fun _ => rfl⟩).rel hprepare
    obtain ⟨m', c', hc', hempty⟩ := halters.data (hv.forest.table.handed _ n hl.1) m d hd
    exact hempty (hmade.begins.empty m' c' hc')

/-- An operation gives no statement to the application. -/
def Act.Statementless (a : Act (Multiset Item)) : Prop :=
  ∀ w items w', a.run w = (.ok items, w') → ∀ s, .statement s ∉ items

lemma Act.statementless {α : Type} {a : Act α} {f : α → Multiset Item} (hf : ∀ x s, .statement s ∉ f x) :
    Statementless (a >>= fun x => pure (f x)) := by
  intro w items w' hr
  obtain ⟨x, -, rfl⟩ := ok_of_giving hr
  exact hf x

lemma EnvironmentCall.statementless (e : Environment) (k : EnvironmentCall) : Statementless (k.perform e) := by
  cases k <;> exact Act.statementless (by simp)

lemma StatementCall.statementless (s : Statement) (k : StatementCall) : Statementless (k.perform s) := by
  have hresultset : ∀ (r : Option Resultset) s, .statement s ∉ resultsetItems r := by
    rintro (_ | r) s <;> simp [resultsetItems]
  cases k with
  | resultset => exact Act.statementless hresultset
  | nextResultset => exact Act.statementless hresultset
  | _ => exact Act.statementless (by simp)

lemma ResultsetCall.statementless (rs : Resultset) (k : ResultsetCall) : Statementless (k.perform rs) := by
  cases k <;> exact Act.statementless (by simp)

lemma ItemCall.statementless (i : Item) (k : ItemCall) : Statementless (k.perform i) := by
  cases k with
  | clone =>
    intro w items w' hr s hs
    obtain ⟨j, hclone, rfl⟩ := ok_of_giving hr
    obtain rfl := Except.ok.inj (Prod.mk.inj hclone).1
    cases i <;> exact absurd (Multiset.mem_singleton.mp hs) nofun
  | findChild p =>
    refine Act.statementless ?_
    rintro (_ | h) s <;> simp
  | _ => exact Act.statementless (by simp)

/-- The statements that an operation gives to the application are new. -/
lemma Operation.begins {hs : Multiset Nat} {op : Operation} {items : Multiset Item} {s : Statement} (hw : Sound hs w)
    (how : Owns t w) (hu : ∀ i ∈ op.uses, i.Housed w) (hr : op.perform.run w = (.ok items, w'))
    (hs' : .statement s ∈ items) : w.Begins s w' := by
  have hnone : Statementless op.perform → w.Begins s w' := fun h => absurd hs' (h w items w' hr s)
  cases op with
  | createEnvironment params => exact hnone (Act.statementless (by simp))
  | environment e k => exact hnone (k.statementless e)
  | registry env k => exact hnone (Act.statementless (by simp))
  | wrap env native kind parent owned onRelease =>
    obtain ⟨v, u, hget, hwrap⟩ := ok_of_bind hr
    split at hwrap
    · obtain rfl := Except.ok.inj (Prod.mk.inj hwrap).1
      exact absurd hs' (Multiset.notMem_zero _)
    · exact absurd hs' (Act.statementless (by simp) _ _ _ hwrap s)
  | connection c k =>
    have he : w.Housed c.env := hu (.connection c) List.mem_cons_self
    cases k with
    | statement =>
      obtain ⟨s', hcreate, rfl⟩ := ok_of_giving hr
      obtain rfl := Item.statement.inj (Multiset.mem_singleton.mp hs')
      exact (Statement.created_of_create hw.forest how he hcreate).begins
    | prepare sql =>
      obtain ⟨s', hprepare, rfl⟩ := ok_of_giving hr
      obtain rfl := Item.statement.inj (Multiset.mem_singleton.mp hs')
      exact Connection.begins_prepare hw how he hprepare
    | _ => exact hnone (Act.statementless (by simp))
  | statement s k => exact hnone (k.statementless s)
  | resultset rs k => exact hnone (k.statementless rs)
  | item i k => exact hnone (k.statementless i)
  | release h => exact hnone (Act.statementless (by simp))
  | newVar v => exact hnone (Act.statementless (by simp))
  | setVar i v => exact hnone (Act.statementless (by simp))
  | library k => exact hnone (Act.statementless (by simp))
  | note n => exact hnone (Act.statementless (by simp))

/-! ### Steps of an application -/

namespace Application
variable {a b : Application} {op : Operation} {s : Statement}

/-- What an operation gives to the application does not matter to the world. -/
lemma world_after {α : Type} {act : Act α} {f : α → Multiset Item} (h : op.perform = act >>= fun x => pure (f x)) :
    (op.after a).world = (act.run a.world).2 := by
  unfold Operation.after
  rw [h, run_bind]
  rcases act.run a.world with ⟨_ | _, _⟩ <;> rfl

/-- A statement at hand is held: none is lent. -/
lemma mem_of_holds (h : a.Holds (.statement s)) : .statement s ∈ a.items := by
  obtain ⟨j, hj, hs⟩ := h
  cases j with
  | statement s' =>
    simp only [Item.parts, List.mem_cons, Item.statement.injEq, reduceCtorEq, List.not_mem_nil, or_false] at hs
    exact hs ▸ hj
  | _ => simp [Item.parts] at hs

/-- The frame of a step of an application. -/
theorem Reachable.alters [Std.Refl V] [Std.Refl R] [IsTrans _ V] [IsTrans _ R] (ht : t.foreign = false)
    (h : Reachable t a) (hp : op.Permitted t) (hr : a.Ready op) (hV : Receives V) (hv : op.Sets V a.world)
    (hR : op.Bears id R a.world) : Alters V id R a.world (op.after a).world :=
  op.alters hp (fun i hi => h.fit.housed_of_holds (hr.1 i hi)) h.fit.sound (h.owns ht) hV hv hR

/-- Environments keep their limits, and numbers are not given twice. -/
lemma Reachable.grows (id : Nat) (ht : t.foreign = false) (h : Reachable t a) (hp : op.Permitted t)
    (hr : a.Ready op) : Alters Anyhow id Anyhow a.world (op.after a).world :=
  h.alters ht hp hr receives_anyhow (op.sets_anyhow _) (op.bears_anyhow _)

/-- After an operation the statements at hand are those that were, and one that has been made. -/
lemma Reachable.begins (ht : t.foreign = false) (h : Reachable t a) (hr : a.Ready op)
    (hs : .statement s ∈ (op.after a).items) : .statement s ∈ a.items ∨ a.world.Begins s (op.after a).world := by
  unfold Operation.after at hs ⊢
  rcases hrun : op.perform.run a.world with ⟨e | items, w⟩ <;> rw [hrun] at hs
  · rcases Multiset.mem_add.mp hs with hs | hs
    · exact absurd hs (Multiset.notMem_zero _)
    · exact .inl (Multiset.mem_of_le (Multiset.sub_le_self _ _) hs)
  · rcases Multiset.mem_add.mp hs with hs | hs
    · exact .inr (op.begins h.fit.sound (h.owns ht) (fun i hi => h.fit.housed_of_holds (hr.1 i hi)) hrun hs)
    · exact .inl (Multiset.mem_of_le (Multiset.sub_le_self _ _) hs)

/-- Nodes are carried along a run. -/
theorem Reachable.carries (h : Reachable t a) (hr : Runs t a b) : Carries a.world b.world :=
  Path.carries (hr.path h.fit) h.fit.sound

lemma Reachable.next (h : Reachable t a) (hp : op.Permitted t) (hr : a.Ready op) : Reachable t (op.after a) :=
  Relation.ReflTransGen.tail h ⟨op, hp, hr, rfl⟩

/-- What is kept for a node goes on to have a property along a list of operations that all keep it. -/
theorem Reachable.data_play {P : Operation → World → Prop} {R : StatementData → Prop} (ht : t.foreign = false)
    (h : Reachable t a) (hid : id < a.world.nodes.next)
    (hstep : ∀ {b : Application} {op : Operation}, Reachable t b → op.Permitted t → b.Ready op → P op b.world →
      id < b.world.nodes.next → (∀ n d, b.world.HasData id n d → R d) →
      ∀ n d, (op.after b).world.HasData id n d → R d)
    {ops : List Operation} (hl : Legal t ops a) (hP : Throughout P ops a) (hR : ∀ n d, a.world.HasData id n d → R d)
    {n : Node} {d : StatementData} (hd : (play ops a).world.HasData id n d) : R d := by
  induction ops generalizing a with
  | nil => exact hR n d hd
  | cons op rest ih =>
    obtain ⟨hp, hr, hrest⟩ := hl
    exact ih (h.next hp hr) (Nat.lt_of_lt_of_le hid (h.grows id ht hp hr).nodes) hrest hP.2
      (hstep h hp hr hP.1 hid hR) hd

/-- Each statement at hand has a node, which lies in the environment of the statement and owns its handle while it
lives. -/
def Seated (a : Application) : Prop := ∀ s, .statement s ∈ a.items → ∃ id, s.handle.node = some id ∧
  (∃ n, a.world.nodes.get? id = some n) ∧ ∀ n, a.world.Live id n → n.env = s.env ∧ n.owned = true

theorem Reachable.seated (ht : t.foreign = false) (h : Reachable t a) : a.Seated := by
  induction h with
  | refl => exact fun s hs => absurd hs (Multiset.notMem_zero _)
  | @tail b _ hrun hstep ih =>
    have hb : Reachable t b := hrun
    have hcarries := hb.carries (Relation.ReflTransGen.single hstep)
    obtain ⟨op, hp, hr, rfl⟩ := hstep
    intro s hs
    rcases hb.begins ht hr hs with hs | hs
    · obtain ⟨id, hid, ⟨n, hn⟩, hseat⟩ := ih s hs
      refine ⟨id, hid, hcarries.there id n hn, fun m hm => ?_⟩
      obtain ⟨hl, hstem⟩ := hcarries.stem id n m hn hm
      have hsame := congrArg Node.env hstem
      exact ⟨Eq.trans hsame (hseat n hl).1, (Node.of_stem hstem).2.2.1.trans (hseat n hl).2⟩
    · exact ⟨_, hs.node, hs.there, hs.seat⟩

/-- A live statement at hand, and the node that keeps its data. -/
lemma Seated.data {d : StatementData} (h : a.Seated) (hs : .statement s ∈ a.items) (hd : s.data? a.world = some d) :
    ∃ id n, s.handle.node = some id ∧ a.world.HasData id n d ∧ n.env = s.env ∧ n.owned = true := by
  obtain ⟨id, n, hid, hl, hx⟩ := Statement.data?_eq_some.mp hd
  obtain ⟨i, hi, -, hseat⟩ := h s hs
  obtain rfl := Option.some.inj (hid.symm.trans hi)
  exact ⟨id, n, hid, ⟨hl, hx⟩, hseat n hl⟩

/-- Statements at hand that share a live node are of the same environment. -/
lemma Seated.env_eq {s' : Statement} {n : Node} (h : a.Seated) (hs : .statement s ∈ a.items)
    (hs' : .statement s' ∈ a.items) (hid : s.handle.node = some id) (hid' : s'.handle.node = some id)
    (hl : a.world.Live id n) : s.env = s'.env := by
  obtain ⟨i, hi, -, henv⟩ := h s hs
  obtain ⟨j, hj, -, henv'⟩ := h s' hs'
  obtain rfl := Option.some.inj (hid.symm.trans hi)
  obtain rfl := Option.some.inj (hid'.symm.trans hj)
  exact (henv n hl).1.symm.trans (henv' n hl).1

end Application
end DbClient
