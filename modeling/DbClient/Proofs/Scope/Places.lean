import DbClient.Proofs.Application.ChainWalks
import DbClient.Proofs.Scope.Nodes
import DbClient.Proofs.Scope.Operations
import DbClient.Proofs.Frame.Genuine

/-! The places of objects in the forest. An environment has a root, a connection lives directly below a root, a
statement directly below its connection, and a resultset is lent by its statement: so it is when an object is made, and
so it stays as long as its handle lives. -/
namespace DbClient
open Act World

variable {S : Scope} {w w' : World} {id : Nat} {n : Node}

/-- The node of a wrapper, if it has one, has a property as long as it lives. -/
def Wrapper.Stands (h : Wrapper) (w : World) (P : Node → Prop) : Prop :=
  ∀ id, h.node = some id → ∃ n, w.nodes.get? id = some n ∧ (w.Live id n → P n)

/-- The node lives directly below a root. -/
def World.Rooted (w : World) (n : Node) : Prop := ∃ p m, n.parent = some p ∧ w.Live p m ∧ m.parent = none

/-- A connection lives directly below a root, in the environment with which it is used, and takes along what is
registered for it. -/
def Connection.Placed (c : Connection) (w : World) : Prop :=
  c.handle.Stands w fun n => n.env = c.env ∧ n.onRelease = .unregisterCallbacks ∧ w.Rooted n

/-- A statement lives directly below its connection. -/
def Statement.Placed (s : Statement) (w : World) : Prop :=
  s.conn.Placed w ∧ s.handle.Stands w fun n => n.parent.isSome ∧ n.parent = s.conn.handle.node

/-- An object is at its place in the forest. -/
def Item.Placed (w : World) : Item → Prop
  | environment e => e.root.Stands w fun n => n.parent = none
  | connection c => c.Placed w
  | statement s => s.Placed w
  | resultset rs => rs.handle.Stands w fun n => n.owned = false
  | handle _ => True

namespace Wrapper
variable {h : Wrapper} {P P' : Node → Prop}

lemma Stands.live (hs : h.Stands w P) (hid : h.node = some id) (hl : w.Live id n) : P n := by
  obtain ⟨m, hm, hp⟩ := hs id hid
  obtain rfl := Option.some.inj (hm.symm.trans hl.1)
  exact hp hl

lemma stands_empty : Stands ⟨none⟩ w P := nofun

lemma Stands.keep (hs : h.Stands w P) (hw : KeepsTrunks w w')
    (hP : ∀ id n m, w.Live id n → w'.Live id m → m.trunk = n.trunk → P n → P' m) : h.Stands w' P' := by
  intro id hid
  obtain ⟨n, hn, hp⟩ := hs id hid
  obtain ⟨m, hm⟩ := hw.there id n hn
  refine ⟨m, hm, fun hl => ?_⟩
  obtain ⟨hln, htrunk⟩ := hw.trunk id n m hn hl
  exact hP id n m hln hl htrunk (hp hln)

lemma clone_eq_acquire {h : Wrapper} (hid : h.node = some id) (hl : w.Live id n) : h.clone w = acquire id w := by
  simp only [clone, liveNode?_eq_some.mpr ⟨hid, hl⟩]

/-- A copy stands where the original does. -/
lemma Stands.clone (hs : h.Stands w' P) : (h.clone w).1.Stands w' P := fun id hid => by
  obtain he | he := h.node_clone w
  · exact hs id (he.symm.trans hid)
  · rw [he] at hid
    cases hid

end Wrapper

/-- A node that stays below a root. -/
lemma World.Rooted.keep {m : Node} (hr : w.Rooted n) (hw : KeepsTrunks w w') (hf : w'.Forest) (hl : w'.Live id m)
    (ht : m.trunk = n.trunk) : w'.Rooted m := by
  obtain ⟨p, k, hp, hk, hroot⟩ := hr
  have hpm : m.parent = some p := (Node.of_trunk ht).2.2.2.2.1.trans hp
  obtain ⟨k', hk', -⟩ := hf.parent_live hl.1 hpm
  obtain ⟨-, htrunk⟩ := hw.trunk p k k' hk.1 hk'
  exact ⟨p, k', hpm, hk', (Node.of_trunk htrunk).2.2.2.2.1.trans hroot⟩

namespace Connection
variable {c : Connection}

lemma Placed.keep (hc : c.Placed w) (hw : KeepsTrunks w w') (hf : w'.Forest) : c.Placed w' :=
  Wrapper.Stands.keep hc hw fun _ _ _ _ hm ht ⟨henv, haction, hroot⟩ =>
    ⟨(Node.of_trunk ht).2.2.2.2.2.2.trans henv, (Node.of_trunk ht).2.2.2.2.2.1.trans haction, hroot.keep hw hf hm ht⟩

end Connection

namespace Item

theorem Placed.keep {i : Item} (hi : i.Placed w) (hw : KeepsTrunks w w') (hf : w'.Forest) : i.Placed w' := by
  cases i with
  | environment e =>
    exact Wrapper.Stands.keep hi hw fun _ _ _ _ _ ht hp => (Node.of_trunk ht).2.2.2.2.1.trans hp
  | connection c => exact Connection.Placed.keep hi hw hf
  | statement s =>
    refine ⟨hi.1.keep hw hf, hi.2.keep hw fun _ _ _ _ _ ht hp => ?_⟩
    rw [(Node.of_trunk ht).2.2.2.2.1]
    exact hp
  | resultset rs => exact Wrapper.Stands.keep hi hw fun _ _ _ _ _ ht ho => (Node.of_trunk ht).2.2.1.trans ho
  | handle h => trivial

lemma Placed.parts {i j : Item} (hi : i.Placed w) (hj : j ∈ i.parts) : j.Placed w :=
  of_mem_parts (fun _ hs => hs.1) hi hj

lemma Placed.clone {i : Item} (hi : i.Placed w') : (i.clone w).1.Placed w' := by
  cases i with
  | connection c => exact Wrapper.Stands.clone hi
  | _ => trivial

/-- A resultset at its place is lent. -/
lemma Placed.fine {i : Item} (hi : i.Placed w) (hh : i.Housed w) : i.Fine w := by
  cases i with
  | statement s => exact hh.1
  | resultset rs => exact fun id n hid hl => Wrapper.Stands.live hi hid hl
  | handle h => trivial
  | _ => exact hh

end Item

/-! ### New objects -/

/-- A node that has just come stands as it was made. -/
lemma World.Forest.stands_grow {node : Node} {P : Node → Prop} (hw : w.Forest) (hf : Fits node w) (hP : P node) :
    Wrapper.Stands ⟨some w.nodes.next⟩ (w.grow node) P := fun id hid => by
  obtain rfl := Option.some.inj hid
  refine ⟨node, hw.get?_grow_next hf, fun _ => hP⟩

namespace Environment

lemma placed_create {params : InitParams} {e : Environment} (hw : Standing w)
    (hr : (create params).run w = (.ok e, w')) : (Item.environment e).Placed w' := by
  obtain ⟨_, _, hget, hopen⟩ := ok_of_bind hr
  obtain ⟨h1, rfl⟩ := Prod.mk.inj hget
  obtain rfl := Except.ok.inj h1
  obtain ⟨_, v, hupdate, hcreate⟩ := ok_of_bind hopen
  obtain rfl := (Prod.mk.inj hupdate).2
  have hopened : Standing { w with envs := w.envs.add (initialState params) } :=
    hw.step (.openEnv Scope.wide_all.creates rfl rfl)
  have hhoused := housed_add (initialState params) w
  dsimp only at hcreate
  generalize ({ w with envs := w.envs.add (initialState params) } : World) = v at hopened hhoused hcreate
  obtain ⟨native, u, hnative, hwrap⟩ := ok_of_bind hcreate
  obtain ⟨l, hc, rfl⟩ := ok_of_require hnative
  obtain ⟨root, x, hroot, hend⟩ := ok_of_bind hwrap
  obtain ⟨hrun, hu⟩ := Wrapper.run_wrap_created w.envs.next .nothing hopened World.leadsTo_none hc
  obtain ⟨h2, rfl⟩ := Prod.mk.inj (hrun.symm.trans hroot)
  obtain rfl := Except.ok.inj h2
  obtain ⟨h3, rfl⟩ := Prod.mk.inj hend
  obtain rfl := Except.ok.inj h3
  have hfits : Fits (Node.wrapping w.envs.next native .environment none true .nothing) v :=
    fits_wrapping hu World.leadsTo_none hhoused
  exact (hopened.forest.ofLibrary l).stands_grow (hfits.ofLibrary l) rfl

end Environment

namespace Connection

lemma placed_connect {env : Nat} {root : Wrapper} {params : ConnectParams} {c : Connection} (hw : Standing w)
    (he : w.Housed env) (hroot : root.Stands w fun n => n.parent = none)
    (hr : (connect env root params).run w = (.ok c, w')) : c.Placed w' := by
  obtain ⟨_, v, hlive, hcreate⟩ := ok_of_bind hr
  obtain ⟨hsame, id, n, hid, hl, rfl⟩ := ok_of_live hlive
  subst v
  obtain ⟨hq, hnative⟩ := World.LeadsTo.nativeOf hid hl
  obtain ⟨native, _, hcreated, hadopt⟩ := ok_of_bind hcreate
  obtain ⟨l, hc, rfl⟩ := ok_of_require hcreated
  rw [← hnative] at hc
  obtain ⟨hrun, hu⟩ := Wrapper.run_adopt_created env .unregisterCallbacks hw hq hc
  obtain ⟨handle, u, hwrap, hset⟩ := ok_of_bind hadopt
  obtain ⟨h1, rfl⟩ := Prod.mk.inj (hrun.symm.trans hwrap)
  obtain rfl := Except.ok.inj h1
  obtain ⟨_, x, hundo, hend⟩ := ok_of_bind hset
  have hfits : Fits (Node.wrapping env native .connection (some id) true .unregisterCallbacks) w :=
    fits_wrapping hu hq he
  have hforest := hw.forest.ofLibrary l
  have hnew := hforest.stands_grow (P := fun n => n.parent = some id ∧ n.env = env ∧ n.onRelease = .unregisterCallbacks)
    (hfits.ofLibrary l) ⟨rfl, rfl, rfl⟩
  have hparent := hforest.get?_grow_of_get? (hfits.ofLibrary l) hl.1
  -- the settings of a connection change no nodes
  have hquiet : Quiet _ x := Does.rel ((quiet_setAttr ⟨env, ⟨some w.nodes.next⟩⟩ _ _).seq fun _ _ _ =>
    (quiet_setCredentials ⟨env, ⟨some w.nodes.next⟩⟩ _).seq fun _ _ _ =>
      quiet_setTimeouts ⟨env, ⟨some w.nodes.next⟩⟩ _) (ok_of_undoing hundo)
  obtain ⟨h2, rfl⟩ := Prod.mk.inj hend
  obtain rfl := Except.ok.inj h2
  intro i hi
  obtain ⟨m, hm, hstands⟩ := hnew i hi
  have hgrown := hquiet.nodes
  refine ⟨m, (congrArg (Table.get? · i) hgrown).trans hm, fun hlive => ?_⟩
  obtain ⟨hp, henv, haction⟩ := hstands ⟨hm, hlive.2⟩
  refine ⟨henv, haction, id, _, hp, ⟨(congrArg (Table.get? · id) hgrown).trans hparent, ?_⟩, ?_⟩
  · split <;> exact hl.2
  · have hnone : n.parent = none := hroot.live hid hl
    split <;> exact hnone

end Connection

namespace Statement

lemma placed_create {conn : Connection} {s : Statement} (hw : Standing w) (he : w.Housed conn.env)
    (hconn : conn.Placed w) (hr : (create conn).run w = (.ok s, w')) : s.Placed w' := by
  have hwithin := (tells_create Scope.wide_all hw he).within
  rw [hr] at hwithin
  obtain ⟨id, n, native, l, hid, hl, hc, rfl, rfl⟩ := ok_of_create hw he hr
  have hkept := Connection.Placed.keep hconn (hwithin.keepsTrunks hw) (hw.within hwithin).forest
  refine ⟨Wrapper.Stands.clone hkept, ?_⟩
  obtain ⟨hq, hnative⟩ := World.LeadsTo.nativeOf hid hl
  rw [← hnative] at hc
  have hu := hw.owns.stranger hw.forest (Library.created hc) conn.env
  have hfits : Fits (Node.wrapping conn.env native .statement (some id) true .freeBinds) w := fits_wrapping hu hq he
  have hforest := hw.forest.ofLibrary l
  have hstands := hforest.stands_grow (P := fun n => n.parent = some id) (hfits.ofLibrary l) rfl
  have hparent := hforest.get?_grow_of_get? (hfits.ofLibrary l) hl.1
  have hlive : ∃ m, (begun conn.env id native n.native l w).Live id m := by
    refine ⟨_, (Table.get?_modify _ _ _ _).trans ((if_neg (hw.forest.not_next hl.1)).trans hparent), ?_⟩
    split <;> exact hl.2
  obtain ⟨m, hm⟩ := hlive
  have hcopy := Wrapper.clone_eq_acquire hid hm
  have hkeeps : KeepsTrunks (World.grow (Node.wrapping conn.env native .statement (some id) true .freeBinds)
      { w with library := l }) (conn.handle.clone (begun conn.env id native n.native l w)).2 := by
    rw [hcopy]
    refine (KeepsTrunks.modifyNode (f := Node.keeping .fresh) (fun _ => rfl) w.nodes.next _).trans (KeepsTrunks.trans ?_
      (KeepsTrunks.modifyNode (f := fun n => { n with holders := n.holders + 1 }) (fun _ => rfl) id _))
    exact KeepsTrunks.of_nodes rfl
  refine hstands.keep hkeeps fun _ _ k _ _ ht hp => ?_
  have hk : k.parent = some id := (Node.of_trunk ht).2.2.2.2.1.trans hp
  refine ⟨by rw [hk]; rfl, hk.trans ?_⟩
  exact (congrArg (fun p : Wrapper × World => p.1.node) hcopy).symm

lemma placed_prepare {c : Connection} {sql : String} {s : Statement} (hw : Standing w) (he : w.Housed c.env)
    (hc : c.Placed w) (hr : (c.prepare sql).run w = (.ok s, w')) : s.Placed w' := by
  obtain ⟨s', v, hcreate, hrest⟩ := ok_of_bind hr
  obtain ⟨_, v', hundo, hend⟩ := ok_of_bind hrest
  obtain ⟨h1, rfl⟩ := Prod.mk.inj hend
  obtain rfl := Except.ok.inj h1
  have hcreated := (tells_create Scope.wide_all hw he).within
  rw [hcreate] at hcreated
  have hv : Standing v := hw.within hcreated
  have hprepared : StepsWithin .all v ((s'.prepare .prepare sql).run v).2 :=
    (tells_prepare hv (fun id _ => ⟨Scope.wide_all.covers id v, trivial⟩) .prepare sql).within
  rw [ok_of_undoing hundo] at hprepared
  have hplaced : (Item.statement s').Placed v := placed_create hw he hc hcreate
  exact hplaced.keep (hprepared.keepsTrunks hv) (hv.within hprepared).forest

lemma placed_takeResultset {s : Statement} {operation : String}
    {ask : Address → Library → Option Address × Library} (hask : Asks ask) {rs : Resultset} (hw : Standing w)
    (he : w.Housed s.env) (hr : (s.takeResultset operation ask).run w = (.ok (some rs), w')) :
    (Item.resultset rs).Placed w' := by
  obtain ⟨hs, hsound⟩ := hw.sound
  obtain ⟨_, j, m, -, hj, hm, -, -, hlent⟩ := lent_of_takeResultset hask rfl hsound hw.owns he hr
  intro i hi
  obtain rfl := Option.some.inj (hj.symm.trans hi)
  exact ⟨m, hm.1, fun _ => hlent⟩

end Statement

/-! ### Operations -/

/-- A call gives objects that are at their places. -/
def Act.Settles (a : Act (Multiset Item)) (w : World) : Prop :=
  ∀ items w', a.run w = (.ok items, w') → ∀ i ∈ items, i.Placed w'

namespace Act.Settles
variable {α : Type} {a : Act α} {f : α → Multiset Item}

lemma giving (h : ∀ x w', a.run w = (.ok x, w') → ∀ i ∈ f x, i.Placed w') : Settles (a >>= fun x => pure (f x)) w := by
  intro items w' hr
  obtain ⟨x, hx, rfl⟩ := ok_of_giving hr
  exact h x w' hx

lemma nothing : Settles (a >>= fun _ => pure 0) w := giving fun _ _ _ i hi => absurd hi (Multiset.notMem_zero i)

lemma single {g : α → Item} (h : ∀ x w', a.run w = (.ok x, w') → (g x).Placed w') :
    Settles (a >>= fun x => pure {g x}) w := giving fun x w' hx i hi => by
  obtain rfl := Multiset.mem_singleton.mp hi
  exact h x w' hx

end Act.Settles

lemma EnvironmentCall.settles {e : Environment} (hw : Standing w) (he : w.Housed e.env)
    (hp : (Item.environment e).Placed w) (k : EnvironmentCall) : Settles (k.perform e) w := by
  cases k with
  | cleanup =>
    refine Settles.single fun x w' hx => ?_
    obtain ⟨h1, rfl⟩ := Prod.mk.inj hx
    obtain rfl := Except.ok.inj h1
    change (Item.environment (e.cleanup w).1).Placed (e.cleanup w).2
    unfold Environment.cleanup
    split
    · exact hp
    · exact Wrapper.stands_empty
  | connect params => exact Settles.single fun c w' hc => Connection.placed_connect hw he hp hc
  | allocate kind parent => exact Settles.single fun _ _ _ => trivial

lemma ConnectionCall.settles {c : Connection} (hw : Standing w) (he : w.Housed c.env) (hp : c.Placed w)
    (k : ConnectionCall) : Settles (k.perform c) w := by
  cases k with
  | statement => exact Settles.single fun s w' hs => Statement.placed_create hw he hp hs
  | prepare sql => exact Settles.single fun s w' hs => Statement.placed_prepare hw he hp hs
  | _ => exact Settles.nothing

lemma StatementCall.settles {s : Statement} (hw : Standing w) (he : w.Housed s.env) (hp : s.Placed w)
    (k : StatementCall) : Settles (k.perform s) w := by
  have hresultset : ∀ {operation} {ask : Address → Library → Option Address × Library}, Statement.Asks ask →
      Settles (s.takeResultset operation ask >>= fun rs => pure (resultsetItems rs)) w := fun hask =>
    Settles.giving fun rs w' hrs i hi => by
      cases rs with
      | none => exact absurd hi (Multiset.notMem_zero i)
      | some rs =>
        obtain rfl := Multiset.mem_singleton.mp hi
        exact Statement.placed_takeResultset hask hw he hrs
  cases k with
  | connection =>
    refine Settles.single fun c w' hc => ?_
    obtain ⟨h1, rfl⟩ := Prod.mk.inj hc
    obtain rfl := Except.ok.inj h1
    have hclone : StepsWithin .all w (s.conn.clone w).2 := StepsWithin.clone fun _ _ => trivial
    exact Wrapper.Stands.clone (hp.1.keep (hclone.keepsTrunks hw) (hw.within hclone).forest)
  | resultset => exact hresultset Statement.asks_resultset
  | nextResultset => exact hresultset Statement.asks_nextResultset
  | _ => exact Settles.nothing

lemma ItemCall.settles {i : Item} (hw : Standing w) (hp : i.Placed w) (k : ItemCall) : Settles (k.perform i) w := by
  cases k with
  | clone =>
    refine Settles.single fun j w' hj => ?_
    obtain ⟨h1, rfl⟩ := Prod.mk.inj hj
    obtain rfl := Except.ok.inj h1
    have hclone : StepsWithin .all w (i.clone w).2 := by
      cases i <;> exact StepsWithin.clone fun _ _ => trivial
    exact (hp.keep (hclone.keepsTrunks hw) (hw.within hclone).forest).clone
  | findChild p =>
    refine Settles.giving fun h w' _ j hj => ?_
    cases h with
    | none => exact absurd hj (Multiset.notMem_zero j)
    | some h =>
      obtain rfl := Multiset.mem_singleton.mp hj
      trivial
  | _ => exact Settles.nothing

theorem Operation.settles {op : Operation} (hw : Standing w) (hp : op.Permitted ⟨false, true⟩)
    (hu : ∀ i ∈ op.uses, i.Housed w ∧ i.Placed w) : Settles op.perform w := by
  cases op with
  | createEnvironment params => exact Settles.single fun e w' he => Environment.placed_create hw he
  | environment e k =>
    have hmem : .environment e ∈ Operation.uses (.environment e k) := by
      rcases k with _ | _ | ⟨_, _ | _⟩ <;> simp [uses]
    exact k.settles hw (hu _ hmem).1 (hu _ hmem).2
  | wrap => cases hp
  | connection c k => exact k.settles hw (hu _ List.mem_cons_self).1 (hu _ List.mem_cons_self).2
  | statement s k => exact k.settles hw (hu _ List.mem_cons_self).1.1 (hu _ List.mem_cons_self).2
  | resultset rs k => cases k <;> exact Settles.nothing
  | item i k => exact k.settles hw (hu _ List.mem_cons_self).2
  | release h => exact Settles.single fun _ _ _ => trivial
  | _ => exact Settles.nothing

/-- An operation of the client takes steps, and what the application does aside changes no nodes. -/
lemma Operation.keepsTrunks {op : Operation} (hw : Standing w) (hp : op.Permitted ⟨false, true⟩)
    (hu : ∀ i ∈ op.uses, i.Fine w) : KeepsTrunks w (op.perform.run w).2 := by
  by_cases ha : op.Aside
  · cases op with
    | newVar v => exact KeepsTrunks.of_nodes rfl
    | setVar id v => exact KeepsTrunks.of_nodes rfl
    | library k => exact KeepsTrunks.of_nodes rfl
    | _ => exact ha.elim
  · have htells := op.tells ⟨Scope.wide_all, fun _ _ => trivial, fun _ _ => trivial, fun _ => trivial⟩ hw hp hu ha
    exact htells.within.keepsTrunks hw

/-! ### Runs -/

namespace Application
variable {a b : Application} {op : Operation}

/-- Between two operations a world stands, whatever is made to fail. -/
lemma Reachable.standing (h : Reachable ⟨false, true⟩ a) : Standing a.world :=
  ⟨⟨a.held, h.fit.sound⟩, h.owns rfl, h.bindings rfl, h.chains rfl⟩

/-- Whatever an application holds is at its place. -/
theorem Reachable.placed (h : Reachable ⟨false, true⟩ a) : ∀ i ∈ a.items, i.Placed a.world := by
  induction h with
  | refl => exact fun i hi => absurd hi (Multiset.notMem_zero i)
  | @tail b _ hrun hstep ih =>
    have hb : Reachable ⟨false, true⟩ b := hrun
    obtain ⟨op, hp, hr, rfl⟩ := hstep
    have hheld : ∀ j ∈ op.uses, j.Housed b.world ∧ j.Placed b.world := fun j hj => by
      obtain ⟨k, hk, hpart⟩ := hr.1 j hj
      exact ⟨hb.fit.housed_of_holds (hr.1 j hj), (ih k hk).parts hpart⟩
    have hkeeps := Operation.keepsTrunks hb.standing hp fun j hj => (hheld j hj).2.fine (hheld j hj).1
    have hforest := (hb.next hp hr).standing.forest
    intro i hi
    have hold : ∀ j ∈ b.items - op.spends, j.Placed (op.perform.run b.world).2 := fun j hj =>
      (ih j (Multiset.mem_of_le (Multiset.sub_le_self _ _) hj)).keep hkeeps hforest
    unfold Operation.after at hi hforest ⊢
    rcases hrun' : op.perform.run b.world with ⟨e | items, w⟩ <;> rw [hrun'] at hi hold
    · rcases Multiset.mem_add.mp hi with hi | hi
      · exact absurd hi (Multiset.notMem_zero _)
      · exact hold i hi
    · rcases Multiset.mem_add.mp hi with hi | hi
      · exact op.settles hb.standing hp hheld items w hrun' i hi
      · exact hold i hi

lemma Reachable.placed_of_holds (h : Reachable ⟨false, true⟩ a) {i : Item} (hi : a.Holds i) : i.Placed a.world := by
  obtain ⟨j, hj, hpart⟩ := hi
  exact (h.placed j hj).parts hpart

/-- The objects of an operation are what they have to be. -/
lemma Reachable.fine (h : Reachable ⟨false, true⟩ a) (hr : a.Ready op) : ∀ i ∈ op.uses, i.Fine a.world := fun i hi =>
  (h.placed_of_holds (hr.1 i hi)).fine (h.fit.housed_of_holds (hr.1 i hi))

/-- What an operation of an application does, and what its errors tell. -/
lemma Reachable.tells (h : Reachable ⟨false, true⟩ a) (hp : op.Permitted ⟨false, true⟩) (hr : a.Ready op)
    (hS : op.Within S a.world) (ha : ¬op.Aside) : Tells S a.world op.perform a.world :=
  op.tells hS h.standing hp (h.fine hr) ha

end Application
end DbClient
