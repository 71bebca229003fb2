import DbClient.Proofs.Scope.Settings
import DbClient.Proofs.Scope.Statements
import DbClient.Proofs.Frame.Creation
import DbClient.Proofs.Moves.Creation

/-! The operations that open environments, connections, statements and resultsets as steps, and those that give them
up. -/
namespace DbClient
open Act World

variable {α β : Type} {S : Scope} {o w w' : World} {id : Nat} {n : Node}

/-! ### New handles -/

/-- An operation whose end is known, and another one after it. -/
lemma Act.Tells.known {a : Act α} {f : α → Act β} {x : α} {u v : World} (hr : a.run u = (.ok x, v))
    (h : StepsWithin S o v) (hf : Tells S v (f x) v) : Tells S o (a >>= f) u :=
  Tells.of_run (b := f x) (by rw [run_bind, hr]) (Tells.onward h hf)

namespace Wrapper
variable {env : Nat} {native : Address} {kind : HandleKind} {parent : Option Wrapper} {owned : Bool}
  {onRelease : ReleaseAction}

/-- A handle is not wrapped for reasons of the client. -/
lemma source?_of_wrap {e : ClientError} (h : (wrap env native kind parent owned onRelease).run w = (.error e, w')) :
    e.source? = none := by
  unfold wrap at h
  dsimp only at h
  split at h
  · obtain rfl := Except.error.inj (congrArg Prod.fst h)
    rfl
  · rw [run_bind, run_get] at h
    dsimp only at h
    split at h
    · split at h
      · obtain rfl := Except.error.inj (congrArg Prod.fst h)
        rfl
      · cases h
    · split at h
      · cases h
      · split at h
        · cases h
        · obtain rfl := Except.error.inj (congrArg Prod.fst h)
          rfl

end Wrapper

namespace Environment

theorem tells_create (hS : S.Wide) (hw : Standing w) (params : InitParams) : Tells S w (create params) w := by
  refine Tells.get (Tells.update_bind (.single (.openEnv hS.creates rfl rfl)) ?_)
  have hopened : Standing { w with envs := w.envs.add (initialState params) } :=
    hw.step (.openEnv (S := S) hS.creates rfl rfl)
  have hhoused := housed_add (initialState params) w
  generalize ({ w with envs := w.envs.add (initialState params) } : World) = u at hopened hhoused
  refine Tells.require_then (.create .environment .null) (fun _ => rfl) honest_id (fun h => h)
    (fun hfail => .single (.refuse hfail)) fun native l hc => ?_
  obtain ⟨hrun, hu⟩ := Wrapper.run_wrap_created w.envs.next .nothing hopened World.leadsTo_none hc
  have hfits : Fits (Node.wrapping w.envs.next native .environment none true .nothing) u :=
    fits_wrapping hu World.leadsTo_none hhoused
  refine Tells.known hrun (.single (.adopt hS.creates hc hfits rfl rfl rfl)) ?_
  exact (Tells.note _ (.refl _)).giving

lemma tells_allocate {e : Environment} (hS : S.Wide) (hw : Standing w) (he : w.Housed e.env) (kind : HandleKind)
    (parent : Option Wrapper) : Tells S w (e.allocate kind parent) w := by
  refine Tells.live (.refl w) fun id n hid hl => ?_
  obtain ⟨hq, hnative⟩ := World.LeadsTo.nativeOf hid hl
  refine Tells.require_then (.create kind n.native) (fun _ => rfl) honest_id (fun h => h)
    (fun hfail => .single (.look hl _ rfl trivial hfail)) fun native l hc => ?_
  rw [← hnative] at hc
  obtain ⟨hrun, hu⟩ := Wrapper.run_wrap_created e.env .nothing hw hq hc
  exact Tells.of_ok hrun (.single (.adopt hS.creates hc (fits_wrapping hu hq he) rfl rfl rfl))

/-- To clean up an environment is to drop its root and to forget its callbacks. -/
lemma within_cleanup {e : Environment} (hr : S.registry) (hd : e.root.Droppable S w) :
    StepsWithin S w (e.cleanup w).2 := by
  unfold cleanup
  split
  · exact .refl w
  · refine (StepsWithin.drop hd).trans (StepsWithin.trans ?_ (.log _ _))
    exact StepsWithin.trans
      (.single (.enroll (f := fun s => { s with callbacks := ∅ }) hr (fun _ => rfl) e.env))
      (.single (.enroll (f := fun s => { s with sync := .unguarded }) hr (fun _ => rfl) e.env))

lemma within_drop {e : Environment} (hr : S.registry) (hS : S.Wide) : StepsWithin S w (e.drop w) :=
  (within_cleanup hr (Wrapper.droppable_of_wide hS)).trans (StepsWithin.drop (Wrapper.droppable_of_wide hS))

end Environment

namespace Connection

theorem tells_connect {env : Nat} {root : Wrapper} (hS : S.Wide) (hw : Standing w) (he : w.Housed env)
    (params : ConnectParams) : Tells S w (connect env root params) w := by
  refine Tells.live (.refl w) fun id n hid hl => ?_
  obtain ⟨hq, hnative⟩ := World.LeadsTo.nativeOf hid hl
  refine Tells.require_then (.create .connection n.native) (fun _ => rfl) honest_id (fun h => h)
    (fun hfail => .single (.look hl _ rfl trivial hfail)) fun native l hc => ?_
  rw [← hnative] at hc
  obtain ⟨hrun, hu⟩ := Wrapper.run_adopt_created env .unregisterCallbacks hw hq hc
  refine Tells.known hrun (.single (.adopt hS.creates hc (fits_wrapping hu hq he) rfl rfl rfl)) ?_
  have hn : ∀ i, (Wrapper.mk (some w.nodes.next)).node = some i → S.node i := fun i _ => hS.node i
  refine Tells.seq (Tells.undoing ?_ fun _ _ => StepsWithin.drop (Wrapper.droppable_of_wide hS)) fun _ u _ _ => ?_
  · exact (tells_setAttr hn (by decide) _).seq fun _ _ _ _ =>
      (tells_setCredentials hn _).seq fun _ _ _ _ => tells_setTimeouts hn _
  · exact Tells.get ((Tells.note _ (.refl u)).giving)

end Connection

namespace Statement

/-- The world in which a statement has been created and noted, before it holds its connection. -/
def begun (env q : Nat) (native parent : Address) (l : Library) (w : World) : World :=
  ((World.grow (Node.wrapping env native .statement (some q) true .freeBinds) { w with library := l }).modifyNode
    w.nodes.next (Node.keeping .fresh)).note (.allocated native parent)

/-- A new statement gets data of its own as soon as its handle is wrapped. -/
theorem run_begun {conn : Connection} {native : Address} {l : Library} (hw : Standing w) (he : w.Housed conn.env)
    (hid : conn.handle.node = some id) (hl : w.Live id n)
    (hc : Library.create .statement n.native w.library = (some native, l)) :
    let v := begun conn.env id native n.native l w
    (S.Wide → StepsWithin S w v) ∧
      (do
        let handle ← Wrapper.adopt conn.env native .statement conn.handle .freeBinds
        Act.undoing handle.drop (handle.setExtra (.statement .fresh))
        Act.note (.allocated native n.native)
        let conn ← modifyGet conn.clone
        pure (⟨conn.env, conn, handle⟩ : Statement) : Act Statement).run { w with library := l } =
      (.ok ⟨conn.env, (conn.clone v).1, ⟨some w.nodes.next⟩⟩, (conn.clone v).2) := by
  obtain ⟨hq, hnative⟩ := World.LeadsTo.nativeOf hid hl
  rw [← hnative] at hc
  obtain ⟨hadopt, hu⟩ := Wrapper.run_adopt_created conn.env .freeBinds hw hq hc
  have hfits : Fits (Node.wrapping conn.env native .statement (some id) true .freeBinds) w := fits_wrapping hu hq he
  have hnew := (hw.forest.ofLibrary l).get?_grow_next (hfits.ofLibrary l)
  have hset := Wrapper.run_setExtra (h := ⟨some w.nodes.next⟩) rfl ⟨hnew, rfl⟩ rfl (.statement .fresh)
  refine ⟨fun hS => ?_, ?_⟩
  · have hbegin : StepWithin S w (World.modifyNode w.nodes.next (Node.keeping .fresh)
        (World.grow (Node.wrapping conn.env native .statement (some id) true .freeBinds) { w with library := l })) :=
      .begin hS.creates rfl hc hfits rfl rfl rfl
    exact (StepsWithin.single hbegin).trans (StepsWithin.log _ _)
  · rw [run_bind, hadopt]
    dsimp only
    rw [run_bind, undoing, run_tryCatch, hset]
    rfl

/-- Each statement that is created has come about in this way. -/
lemma ok_of_create {conn : Connection} {s : Statement} (hw : Standing w) (he : w.Housed conn.env)
    (hr : (create conn).run w = (.ok s, w')) : ∃ id n native l, conn.handle.node = some id ∧ w.Live id n ∧
      Library.create .statement n.native w.library = (some native, l) ∧
      s = ⟨conn.env, (conn.clone (begun conn.env id native n.native l w)).1, ⟨some w.nodes.next⟩⟩ ∧
      w' = (conn.clone (begun conn.env id native n.native l w)).2 := by
  obtain ⟨v, u, hget, hguard⟩ := ok_of_bind hr
  obtain ⟨h1, rfl⟩ := Prod.mk.inj hget
  obtain rfl := Except.ok.inj h1
  dsimp only at hguard
  split at hguard
  · cases hguard
  · rename_i hnull
    obtain ⟨id, n, hid, hl⟩ := Wrapper.isNull_eq_false.mp (Bool.eq_false_iff.mpr hnull)
    rw [Wrapper.native_of_live hid hl] at hguard
    obtain ⟨native, x, hcreate, hrest⟩ := ok_of_bind hguard
    obtain ⟨l, hc, rfl⟩ := ok_of_require hcreate
    obtain ⟨-, hrun⟩ := run_begun (S := .all) hw he hid hl hc
    obtain ⟨h2, rfl⟩ := Prod.mk.inj (hrun.symm.trans hrest)
    exact ⟨id, n, native, l, hid, hl, hc, (Except.ok.inj h2).symm, rfl⟩

theorem tells_create (hS : S.Wide) (hw : Standing w) {conn : Connection} (he : w.Housed conn.env) :
    Tells S w (create conn) w := by
  apply Tells.get
  split
  · exact Tells.throw_bind (.refl w) rfl
  · rename_i hnull
    obtain ⟨id, n, hid, hl⟩ := Wrapper.isNull_eq_false.mp (Bool.eq_false_iff.mpr hnull)
    rw [Wrapper.native_of_live hid hl]
    refine Tells.require_then (.create .statement n.native) (fun _ => rfl) honest_id (fun h => h)
      (fun hfail => .single (.look hl _ rfl trivial hfail)) fun native l hc => ?_
    obtain ⟨hbegun, hrun⟩ := run_begun hw he hid hl hc
    exact Tells.of_ok hrun ((hbegun hS).trans (StepsWithin.clone fun i _ => hS.count i))

/-- A statement gives up its connection, then its handle. -/
lemma within_drop {s : Statement} (hd : s.conn.handle.Droppable S w)
    (hd' : s.handle.Droppable S (s.conn.drop w)) : StepsWithin S w (s.drop w) :=
  (StepsWithin.drop hd).trans (StepsWithin.drop hd')

end Statement

/-- A statement that is created with a text is new. -/
theorem Connection.tells_prepare {c : Connection} (hS : S.Wide) (ht : ∀ id, w.nodes.next ≤ id → S.text id)
    (hw : Standing w) (he : w.Housed c.env) (sql : String) : Tells S w (c.prepare sql) w := by
  refine (Statement.tells_create hS hw he).seq fun s v hr hd => ?_
  have hnew : s.handle.node = some w.nodes.next := by
    obtain ⟨_, _, _, _, _, _, _, rfl, -⟩ := Statement.ok_of_create hw he hr
    rfl
  refine Tells.giving (Tells.undoing ?_ fun _ _ =>
    Statement.within_drop (Wrapper.droppable_of_wide hS) (Wrapper.droppable_of_wide hS))
  refine Statement.tells_prepare (hw.within hd) (fun id hid => ⟨hS.covers id v, ht id ?_⟩) _ _
  exact Nat.le_of_eq (Option.some.inj (hnew.symm.trans hid))

/-! ### Resultsets -/

namespace Statement
variable {s : Statement}

/-- A resultset that a statement lists is wrapped below it, once more if it was wrapped before. -/
lemma tells_lend {a : Address} {st : NativeStatement} (hw : Standing w) (hS : S.Covers id w) (he : w.Housed s.env)
    (hid : s.handle.node = some id) (hl : w.Live id n) (hst : w.library.stmts.get? n.native = some st)
    (ha : a ∈ st.resultsets) : Tells S w (Wrapper.wrap s.env a .resultset (some s.handle) false .nothing) w := by
  obtain ⟨r, v, hrun, hcases⟩ :=
    Wrapper.wrap_cases hw.forest s.env a .resultset (some s.handle) false .nothing
  obtain ⟨e, rfl, rfl, -⟩ | ⟨j, m, hstored, hm, -, rfl, rfl⟩ | ⟨q, hu, hq, rfl, rfl⟩ := hcases
  · exact Tells.of_run (b := throw e) hrun (Tells.throw (.refl _) (Wrapper.source?_of_wrap hrun))
  · -- only the statement that lists a resultset can have wrapped it
    obtain ⟨m', hm', -, rfl⟩ := hw.forest.stored _ _ _ hstored
    obtain rfl := hm.unique hm'
    obtain ⟨hparent, -⟩ := hw.owns.below_of_listed hl hm ((Library.listed_of_get? hst).symm ▸ ha)
    have hchild : j ∈ n.children :=
      (hw.forest.mem_children hl.1).mpr (parent?_eq_some.mpr ⟨m, hm.1, hparent⟩)
    exact Tells.of_ok hrun (.single (.acquire (S.counted j (hS.below w (.refl w) n j hl hchild)) hm))
  · have hfits : Fits (Node.wrapping s.env a .resultset q false .nothing) w := fits_wrapping hu hq he
    obtain ⟨i, _, hi, -, rfl⟩ := hq
    obtain rfl := Option.some.inj (hid.symm.trans hi)
    exact Tells.of_ok hrun (.single (.lend hS.node hl rfl hst ha hfits rfl rfl rfl rfl rfl))

/-- A primitive that asks for a resultset, as a call. -/
structure AsksBy (ask : Address → Library → Option Address × Library) (i : Address → Invocation) : Prop where
  run : ∀ h l, Invocation.gave (ask h l) = (i h).run l
  handle : ∀ h, (i h).handle = h
  steady : ∀ h l, (i h).Steady l
  plain : ∀ h rs, i h ≠ .currentRow rs

lemma asksBy_resultset : AsksBy Library.resultset .resultset :=
  ⟨fun _ _ => rfl, fun _ => rfl, fun _ _ => trivial, nofun⟩

lemma asksBy_nextResultset : AsksBy Library.nextResultset .nextResultset :=
  ⟨fun _ _ => rfl, fun _ => rfl, fun _ _ => trivial, nofun⟩

theorem tells_takeResultset {ask : Address → Library → Option Address × Library} {i : Address → Invocation}
    (hask : Asks ask) (hi : AsksBy ask i) (hw : Standing w) (hS : ∀ id, s.handle.node = some id → S.Covers id w)
    (he : w.Housed s.env) (operation : String) : Tells S w (s.takeResultset operation ask) w := by
  refine Tells.live (.refl w) fun id n hid hl =>
    Tells.dataOf (.refl w) hid hl fun d _ => Tells.requireStatus (.refl w) fun _ => ?_
  have hcall : StepsWithin S w { w with library := ((i n.native).run w.library).2 } :=
    .work (hS id hid).node hl (.call _ (hi.handle n.native) (hi.steady _ _))
  have hdress : Honest fun e => (ClientError.withSql d.sql e).withHandle n.native := fun e => by simp
  refine (Tells.optional (i n.native) (hi.run n.native) hdress (hi.plain n.native) hcall).seq fun r u hr hd => ?_
  cases r with
  | none => exact Tells.pure (.refl u) none
  | some a =>
    obtain ⟨l, hf, rfl⟩ := ok_of_optional hr
    obtain ⟨st, hst, ha⟩ := hask.listed _ _ _ _ hf
    have hlive : World.Live { w with library := l } id n := hl
    exact (tells_lend (hw.within hd) ((hS id hid).onward hd) he hid hlive hst ha).giving

end Statement
end DbClient
