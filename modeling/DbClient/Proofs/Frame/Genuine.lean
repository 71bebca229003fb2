import DbClient.Proofs.Application.PrepareLaw
import DbClient.Proofs.Ownership.Kinds

/-! What objects are made of: a connection wraps a connection, a statement a statement, and so on. This is so from
when an object is made on, whatever becomes of its handle. -/
namespace DbClient
open Act World

/-- The node of a wrapper, if it has one, is of a kind. -/
def Wrapper.IsOf (h : Wrapper) (kind : HandleKind) (w : World) : Prop := ∀ id, h.node = some id → w.kind? id = some kind

/-- The nodes of an object are of the kinds that it stands for. A bare handle stands for any. -/
def Item.Genuine (w : World) : Item → Prop
  | environment e => e.root.IsOf .environment w
  | connection c => c.handle.IsOf .connection w
  | statement s => s.conn.handle.IsOf .connection w ∧ s.handle.IsOf .statement w
  | resultset rs => rs.handle.IsOf .resultset w
  | handle _ => True

variable {t : Terms} {hs : Multiset Nat} {w w' : World} {kind : HandleKind} {h : Wrapper}

namespace Wrapper

lemma IsOf.keep (hk : h.IsOf kind w) (hw : KeepsKinds w w') : h.IsOf kind w' := fun id hid => hw id kind (hk id hid)

lemma isOf_empty : IsOf ⟨none⟩ kind w := nofun

/-- A copy has the node of what is copied, or none. -/
lemma node_clone (h : Wrapper) (w : World) : (h.clone w).1.node = h.node ∨ (h.clone w).1.node = none := by
  unfold clone
  split
  · rename_i id n hl
    exact .inl (liveNode?_eq_some.mp hl).1.symm
  · exact .inr rfl

lemma IsOf.clone (hk : h.IsOf kind w') : (h.clone w).1.IsOf kind w' := by
  intro id hid
  obtain he | he := h.node_clone w
  · exact hk id (he.symm.trans hid)
  · rw [he] at hid
    cases hid

/-- The kind of a wrapper with a node is that of the node. -/
lemma kind_eq {id : Nat} (hid : h.node = some id) (hk : w.kind? id = some kind) : h.kind w = kind := by
  rw [Wrapper.kind, anyNode?, hid]
  exact congrArg (Option.getD · HandleKind.environment) hk

/-- A handle that has no node gets one of its own kind. -/
lemma isOf_wrap {env : Nat} {native : Address} {parent : Option Wrapper} {owned : Bool} {onRelease : ReleaseAction}
    (hw : w.Forest) (he : w.Housed env) (hs : w.stored? env native = none)
    (hr : (wrap env native kind parent owned onRelease).run w = (.ok h, w')) : h.IsOf kind w' := by
  obtain ⟨r, v, hrun, hcases⟩ := wrap_cases hw env native kind parent owned onRelease
  obtain ⟨rfl, rfl⟩ := Prod.mk.inj (hrun.symm.trans hr)
  obtain ⟨e, he, -⟩ | ⟨i, n, hi, -⟩ | ⟨q, -, hq, hok, rfl⟩ := hcases
  · cases he
  · rw [hs] at hi
    cases hi
  · obtain rfl := Except.ok.inj hok
    intro id hid
    obtain rfl := Option.some.inj hid
    rw [kind?, hw.get?_grow_next (fits_wrapping hs hq he)]
    rfl

end Wrapper

namespace Item

lemma Genuine.keep {i : Item} (hi : i.Genuine w) (hw : KeepsKinds w w') : i.Genuine w' := by
  cases i with
  | statement s => exact ⟨hi.1.keep hw, hi.2.keep hw⟩
  | handle h => trivial
  | _ => exact Wrapper.IsOf.keep hi hw

lemma Genuine.parts {i j : Item} (hi : i.Genuine w) (hj : j ∈ i.parts) : j.Genuine w :=
  of_mem_parts (fun _ hs => hs.1) hi hj

end Item

/-! ### New objects -/

/-- A handle that has just been created is wrapped as what it is. -/
lemma Wrapper.isOf_created {env : Nat} {native parent : Address} {l : Library} {p : Option Wrapper} {owned : Bool}
    {onRelease : ReleaseAction} (hw : w.Forest) (how : Owns t w) (he : w.Housed env)
    (hc : Library.create kind parent w.library = (some native, l))
    (hr : (wrap env native kind p owned onRelease).run { w with library := l } = (.ok h, w')) : h.IsOf kind w' :=
  isOf_wrap (w := { w with library := l }) (hw.congr hw.table hw.envs (fun _ => rfl) fun _ => rfl) he
    (how.stranger hw (Library.created hc) env) hr

lemma Environment.isOf_create {params : InitParams} {e : Environment} (hw : Sound hs w) (how : Owns t w)
    (ht : t.foreign = false) (hr : (create params).run w = (.ok e, w')) : e.root.IsOf .environment w' := by
  obtain ⟨_, _, hget, hopen⟩ := ok_of_bind hr
  obtain ⟨h1, rfl⟩ := Prod.mk.inj hget
  obtain rfl := Except.ok.inj h1
  obtain ⟨_, v, hupdate, hcreate⟩ := ok_of_bind hopen
  obtain rfl := (Prod.mk.inj hupdate).2
  have hmove : Move t hs w hs { w with envs := w.envs.add (initialState params) } := .openEnv rfl
  obtain ⟨native, u, hnative, hwrap⟩ := ok_of_bind hcreate
  obtain ⟨l, hc, rfl⟩ := ok_of_require hnative
  obtain ⟨root, u', hroot, hend⟩ := ok_of_bind hwrap
  have hof : root.IsOf .environment u' :=
    Wrapper.isOf_created (w := { w with envs := w.envs.add (initialState params) }) (hmove.sound hw).forest
      (hmove.owns ht hw how) (housed_add _ w) hc hroot
  obtain ⟨h2, rfl⟩ := Prod.mk.inj hend
  obtain rfl := Except.ok.inj h2
  exact hof

lemma Connection.isOf_connect {env : Nat} {root : Wrapper} {params : ConnectParams} {c : Connection} (hw : w.Forest)
    (how : Owns t w) (he : w.Housed env) (hr : (connect env root params).run w = (.ok c, w')) :
    c.handle.IsOf .connection w' := by
  obtain ⟨_, v, hlive, hcreate⟩ := ok_of_bind hr
  obtain ⟨rfl, -⟩ := ok_of_live hlive
  obtain ⟨native, _, hnative, hadopt⟩ := ok_of_bind hcreate
  obtain ⟨l, hc, rfl⟩ := ok_of_require hnative
  obtain ⟨handle, u, hwrap, hset⟩ := ok_of_bind hadopt
  have hof : handle.IsOf .connection u := Wrapper.isOf_created hw how he hc (Wrapper.ok_of_adopt hwrap)
  obtain ⟨_, x, hundo, hend⟩ := ok_of_bind hset
  have hquiet : Quiet u x := Does.rel ((quiet_setAttr ⟨env, handle⟩ _ _).seq fun _ _ _ =>
    (quiet_setCredentials ⟨env, handle⟩ _).seq fun _ _ _ => quiet_setTimeouts ⟨env, handle⟩ _) (ok_of_undoing hundo)
  obtain ⟨h2, rfl⟩ := Prod.mk.inj hend
  obtain rfl := Except.ok.inj h2
  exact hof.keep (.of_nodes hquiet.nodes)

namespace Wrapper

lemma keepsKinds_acquire (id : Nat) (w : World) : KeepsKinds w (acquire id w).2 :=
  .modifyNode (f := fun n => { n with holders := n.holders + 1 }) (fun _ => rfl) id w

lemma keepsKinds_clone (h : Wrapper) (w : World) : KeepsKinds w (h.clone w).2 := by
  unfold clone
  split
  · exact keepsKinds_acquire _ w
  · exact .refl w

lemma keepsKinds_setExtra (h : Wrapper) (e : Extra) : Does KeepsKinds (h.setExtra e) w := by
  apply Does.get
  split
  · exact Does.throw _
  · rename_i id n _
    exact (KeepsKinds.modifyNode (f := fun n => { n with extra := some e }) (fun _ => rfl) id w).trans (.of_nodes rfl)

end Wrapper

namespace Statement

lemma genuine_create {conn : Connection} {s : Statement} (hw : Sound hs w) (how : Owns t w) (he : w.Housed conn.env)
    (hconn : conn.handle.IsOf .connection w) (hr : (create conn).run w = (.ok s, w')) :
    (Item.statement s).Genuine w' := by
  have hpath := takes_create (t := t) conn he hw
  rw [hr] at hpath
  have hkeeps : KeepsKinds w w' := Path.keepsKinds hpath hw
  obtain ⟨_, v, hget, hguard⟩ := ok_of_bind hr
  obtain ⟨h1, rfl⟩ := Prod.mk.inj hget
  obtain rfl := Except.ok.inj h1
  dsimp only at hguard
  split at hguard
  · cases hguard
  · obtain ⟨native, _, hnative, hadopt⟩ := ok_of_bind hguard
    obtain ⟨l, hc, rfl⟩ := ok_of_require hnative
    obtain ⟨handle, u, hwrap, hset⟩ := ok_of_bind hadopt
    have hof : handle.IsOf .statement u := Wrapper.isOf_created hw.forest how he hc (Wrapper.ok_of_adopt hwrap)
    obtain ⟨_, x, hundo, hnote⟩ := ok_of_bind hset
    have hdata : KeepsKinds u x := (handle.keepsKinds_setExtra _).rel (ok_of_undoing hundo)
    obtain ⟨_, y, hlog, hend⟩ := ok_of_bind hnote
    obtain rfl := (Prod.mk.inj hlog).2
    obtain ⟨c, z, hclone, hlast⟩ := ok_of_bind hend
    obtain ⟨h2, rfl⟩ := Prod.mk.inj hclone
    obtain rfl := Except.ok.inj h2
    obtain ⟨h3, rfl⟩ := Prod.mk.inj hlast
    obtain rfl := Except.ok.inj h3
    have hcopy : KeepsKinds x (conn.clone (x.note (.allocated native (conn.handle.native w)))).2 :=
      (KeepsKinds.of_nodes rfl).trans
        (conn.handle.keepsKinds_clone (x.note (.allocated native (conn.handle.native w))))
    exact ⟨(hconn.keep hkeeps).clone, (hof.keep hdata).keep hcopy⟩

lemma genuine_prepare {c : Connection} {sql : String} {s : Statement} (hw : Sound hs w) (how : Owns t w)
    (he : w.Housed c.env) (hc : c.handle.IsOf .connection w) (hr : (c.prepare sql).run w = (.ok s, w')) :
    (Item.statement s).Genuine w' := by
  obtain ⟨s', v, hcreate, hrest⟩ := ok_of_bind hr
  obtain ⟨_, v', hundo, hend⟩ := ok_of_bind hrest
  obtain ⟨h1, rfl⟩ := Prod.mk.inj hend
  obtain rfl := Except.ok.inj h1
  have hpath := takes_create (t := t) c he hw
  rw [hcreate] at hpath
  have hv : Sound (s'.points + hs) v := Path.sound hpath hw
  have hcourse : Course t (s'.points + hs) v v' := (s'.course_prepare .prepare sql).rel (ok_of_undoing hundo)
  exact (genuine_create hw how he hc hcreate).keep (Path.keepsKinds (hcourse hv) hv)

/-- What a statement gives as a resultset is one. -/
lemma isOf_takeResultset {s : Statement} {operation : String} {ask : Address → Library → Option Address × Library}
    (hask : Asks ask) {rs : Resultset} (ht : t.foreign = false) (hw : Sound hs w) (how : Owns t w)
    (he : w.Housed s.env) (hr : (s.takeResultset operation ask).run w = (.ok (some rs), w')) :
    rs.handle.IsOf .resultset w' := by
  obtain ⟨_, j, m, -, hj, hm, -, hkind⟩ := below_of_takeResultset hask ht hw how he hr
  intro id hid
  obtain rfl := Option.some.inj (hj.symm.trans hid)
  rw [kind?, hm.1, Option.map_some, hkind]

end Statement

/-! ### Operations -/

/-- A call gives objects that are what they stand for. -/
def Act.Makes (a : Act (Multiset Item)) (w : World) : Prop :=
  ∀ items w', a.run w = (.ok items, w') → ∀ i ∈ items, i.Genuine w'

namespace Act.Makes
variable {α : Type} {a : Act α} {f : α → Multiset Item}

lemma giving (h : ∀ x w', a.run w = (.ok x, w') → ∀ i ∈ f x, i.Genuine w') : Makes (a >>= fun x => pure (f x)) w := by
  intro items w' hr
  obtain ⟨x, hx, rfl⟩ := ok_of_giving hr
  exact h x w' hx

lemma nothing : Makes (a >>= fun _ => pure 0) w := giving fun _ _ _ i hi => absurd hi (Multiset.notMem_zero i)

lemma single {g : α → Item} (h : ∀ x w', a.run w = (.ok x, w') → (g x).Genuine w') :
    Makes (a >>= fun x => pure {g x}) w := giving fun x w' hx i hi => by
  obtain rfl := Multiset.mem_singleton.mp hi
  exact h x w' hx

end Act.Makes

lemma EnvironmentCall.makes {e : Environment} (hw : w.Forest) (how : Owns t w) (he : w.Housed e.env)
    (hg : (Item.environment e).Genuine w) (k : EnvironmentCall) : Makes (k.perform e) w := by
  cases k with
  | cleanup =>
    refine Makes.single fun x w' hx => ?_
    obtain ⟨h1, rfl⟩ := Prod.mk.inj hx
    obtain rfl := Except.ok.inj h1
    change (Item.environment (e.cleanup w).1).Genuine (e.cleanup w).2
    unfold Environment.cleanup
    split
    · exact hg
    · exact Wrapper.isOf_empty
  | connect params => exact Makes.single fun c w' hc => Connection.isOf_connect hw how he hc
  | allocate kind parent => exact Makes.single fun _ _ _ => trivial

lemma ConnectionCall.makes {c : Connection} (hw : Sound hs w) (how : Owns t w) (he : w.Housed c.env)
    (hc : (Item.connection c).Genuine w) (k : ConnectionCall) : Makes (k.perform c) w := by
  cases k with
  | statement => exact Makes.single fun s w' hs => Statement.genuine_create hw how he hc hs
  | prepare sql => exact Makes.single fun s w' hs => Statement.genuine_prepare hw how he hc hs
  | _ => exact Makes.nothing

lemma StatementCall.makes {s : Statement} (ht : t.foreign = false) (hw : Sound hs w) (how : Owns t w)
    (he : w.Housed s.env) (hg : (Item.statement s).Genuine w) (k : StatementCall) : Makes (k.perform s) w := by
  have hresultset : ∀ {operation} {ask : Address → Library → Option Address × Library}, Statement.Asks ask →
      Makes (s.takeResultset operation ask >>= fun rs => pure (resultsetItems rs)) w := fun hask =>
    Makes.giving fun rs w' hrs i hi => by
      cases rs with
      | none => exact absurd hi (Multiset.notMem_zero i)
      | some rs =>
        obtain rfl := Multiset.mem_singleton.mp hi
        exact Statement.isOf_takeResultset hask ht hw how he hrs
  cases k with
  | connection =>
    refine Makes.single fun c w' hc => ?_
    obtain ⟨h1, rfl⟩ := Prod.mk.inj hc
    obtain rfl := Except.ok.inj h1
    exact (hg.1.keep (s.conn.handle.keepsKinds_clone w)).clone
  | resultset => exact hresultset Statement.asks_resultset
  | nextResultset => exact hresultset Statement.asks_nextResultset
  | _ => exact Makes.nothing

lemma ItemCall.makes {i : Item} (hg : i.Genuine w) (k : ItemCall) : Makes (k.perform i) w := by
  cases k with
  | clone =>
    refine Makes.single fun j w' hj => ?_
    obtain ⟨h1, rfl⟩ := Prod.mk.inj hj
    obtain rfl := Except.ok.inj h1
    cases i with
    | connection c => exact (Wrapper.IsOf.keep hg (c.handle.keepsKinds_clone w)).clone
    | _ => trivial
  | findChild p =>
    refine Makes.giving fun h w' _ j hj => ?_
    cases h with
    | none => exact absurd hj (Multiset.notMem_zero j)
    | some h =>
      obtain rfl := Multiset.mem_singleton.mp hj
      trivial
  | _ => exact Makes.nothing

lemma Operation.makes {op : Operation} (ht : t.foreign = false) (hw : Sound hs w) (how : Owns t w)
    (hu : ∀ i ∈ op.uses, i.Housed w) (hg : ∀ i ∈ op.uses, i.Genuine w) : Makes op.perform w := by
  cases op with
  | createEnvironment params => exact Makes.single fun e w' he => Environment.isOf_create hw how ht he
  | environment e k =>
    have hmem : .environment e ∈ Operation.uses (.environment e k) := by
      rcases k with _ | _ | ⟨_, _ | _⟩ <;> simp [uses]
    exact k.makes hw.forest how (hu _ hmem) (hg _ hmem)
  | wrap env native kind parent owned onRelease =>
    intro items w' hr i hi
    obtain ⟨v, u, -, hwrap⟩ := ok_of_bind hr
    split at hwrap
    · obtain rfl := Except.ok.inj (Prod.mk.inj hwrap).1
      exact absurd hi (Multiset.notMem_zero i)
    · obtain ⟨h, -, rfl⟩ := ok_of_giving hwrap
      obtain rfl := Multiset.mem_singleton.mp hi
      trivial
  | connection c k => exact k.makes hw how (hu _ List.mem_cons_self) (hg _ List.mem_cons_self)
  | statement s k => exact k.makes ht hw how (hu _ List.mem_cons_self).1 (hg _ List.mem_cons_self)
  | resultset rs k => cases k <;> exact Makes.nothing
  | item i k => exact k.makes (hg _ List.mem_cons_self)
  | release h => exact Makes.single fun _ _ _ => trivial
  | _ => exact Makes.nothing

namespace Application
variable {a : Application}

/-- What an application holds is what it stands for. -/
theorem Reachable.genuine (ht : t.foreign = false) (h : Reachable t a) : ∀ i ∈ a.items, i.Genuine a.world := by
  induction h with
  | refl => exact fun i hi => absurd hi (Multiset.notMem_zero i)
  | @tail b _ hrun hstep ih =>
    have hb : Reachable t b := hrun
    have hkeeps := Path.keepsKinds (hstep.path hb.fit) hb.fit.sound
    obtain ⟨op, hp, hr, rfl⟩ := hstep
    intro i hi
    have hheld : ∀ j ∈ op.uses, j.Genuine b.world := fun j hj => by
      obtain ⟨k, hk, hpart⟩ := hr.1 j hj
      exact (ih k hk).parts hpart
    have hold : ∀ j ∈ b.items - op.spends, j.Genuine (op.after b).world := fun j hj =>
      (ih j (Multiset.mem_of_le (Multiset.sub_le_self _ _) hj)).keep hkeeps
    unfold Operation.after at hi hold ⊢
    rcases hrun' : op.perform.run b.world with ⟨e | items, w⟩ <;> rw [hrun'] at hi hold
    · rcases Multiset.mem_add.mp hi with hi | hi
      · exact absurd hi (Multiset.notMem_zero _)
      · exact hold i hi
    · rcases Multiset.mem_add.mp hi with hi | hi
      · exact op.makes ht hb.fit.sound (hb.owns ht) (fun j hj => hb.fit.housed_of_holds (hr.1 j hj)) hheld items w
          hrun' i hi
      · exact hold i hi

lemma Reachable.genuine_of_holds (ht : t.foreign = false) (h : Reachable t a) {i : Item} (hi : a.Holds i) :
    i.Genuine a.world := by
  obtain ⟨j, hj, hpart⟩ := hi
  exact (h.genuine ht j hj).parts hpart

end Application
end DbClient
