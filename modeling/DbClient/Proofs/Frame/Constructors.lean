import DbClient.Proofs.Frame.Creation
import DbClient.Proofs.Frame.Leaf
import DbClient.Proofs.Frame.Writing
import DbClient.Proofs.Outcomes

/-! Constructors that fail. A constructor creates a native handle, wraps it and goes on with it; whatever fails on the
way, the handle is destroyed and the wrapper given up, so that the world is restored. Only the plain allocation of a
handle leaves it behind when it cannot be wrapped. -/
namespace DbClient
open Act World

variable {w w' : World} {env id : Nat} {n : Node} {l : Library} {kind : HandleKind} {native a : Address}
  {onRelease : ReleaseAction} {parent : Wrapper}

namespace World

/-- A handle that has not been created has changed nothing. -/
lemma Restored.ofRefused (hl : w.Live id n) (hc : Library.create kind n.native w.library = (none, l)) :
    Restored w { w with library := l.lastError.2 } := by
  have hknown : w.Answers n.native := ⟨id, n, hl, rfl⟩
  have hq := (Library.Quiet.create (.inl hknown) hc).trans (.lastError l)
  exact .ofLibrary fun a => by rw [hq.handles]

/-! ### New leaves -/

lemma callback?_grow (node : Node) (w : World) (env : Nat) (key : Address) :
    (w.grow node).callback? env key = w.callback? env key := by
  unfold grow Wrapper.addNode
  dsimp only
  split
  all_goals
    exact callback?_modifyEnv (f := fun e => { e with store := e.store.put node.native w.nodes.next })
      (fun _ => rfl) node.env env key _

/-- A handle that has just been created is wrapped. -/
lemma AddsHandle.ofCreate (node : Node) (hf : w.Forest) (hn : w.Numbered)
    (hc : Library.create node.kind a w.library = (some node.native, l)) :
    AddsHandle node w (World.grow node { w with library := l }) := by
  have hcreated := Library.created hc
  have hlib : World.Forest { w with library := l } := hf.congr hf.table hf.envs (fun _ => rfl) fun _ => rfl
  have hgrow : World.grow node { w with library := l } = { w.grow node with library := l } := by
    unfold World.grow Wrapper.addNode
    dsimp only
    split <;> rfl
  refine ⟨fun i => by rw [hgrow], lawful_grow hlib.table node, fun env => by rw [hgrow]; rfl,
    envs_lawful_grow hlib.envs node, fun env key => callback?_grow node _ env key, fun b => ?_, ?_, ?_⟩
  · rw [library_grow, hcreated.handles, Assoc.get?_put]
  · rw [library_grow]
    exact hn.unlisted hc
  · rw [library_grow, hcreated.failures]
    exact hn.sturdy

/-- A handle that is destroyed as soon as it has been created leaves nothing behind. -/
lemma Restored.ofDestroy (hn : w.Numbered) (hc : Library.create kind a w.library = (some native, l)) :
    Restored w { w with library := (Library.destroy kind native l).2 } := by
  have hcreated := Library.created hc
  have halive : l.isAlive native = true := by
    rw [Library.isAlive, Assoc.contains_iff]
    exact ⟨kind, by rw [hcreated.handles, Assoc.get?_put, if_pos rfl]⟩
  have hsturdy : l.failures.get? .destroy = none := hcreated.failures ▸ hn.sturdy
  have hhandles : ∀ b, (l.letGo kind native).handles.get? b = w.library.handles.get? b := fun b => by
    obtain ⟨hno, -⟩ | ⟨-, hd⟩ := Library.letGo_spec kind native l
    · simp [hsturdy, halive] at hno
    · rw [hd.handles, hn.unlisted hc, hcreated.handles, Assoc.get?_put]
      by_cases hb : b = native
      · rw [if_pos (.inl hb), hb, hn.not_alive hc]
      · rw [if_neg (by simpa using hb), if_neg (Ne.symm hb)]
  refine .ofLibrary fun b => ?_
  obtain he | he := Library.letGo_eq kind native l
  · rw [← he, hhandles]
  · rw [← hhandles, he]

end World

namespace Wrapper

/-- A handle that has just been created is adopted, or all is restored. -/
lemma adopt_cases (onRelease : ReleaseAction) (hf : w.Forest) (hn : w.Numbered) (he : w.Housed env)
    (hid : parent.node = some id) (hl : w.Live id n) (hc : Library.create kind a w.library = (some native, l)) :
    Ends (adopt env native kind parent onRelease) { w with library := l } fun r w' =>
      (∃ e, r = .error e ∧ Restored w w') ∨ r = .ok ⟨some w.nodes.next⟩ ∧
        NewLeaf (Node.wrapping env native kind (some id) true onRelease) w ∧
        AddsHandle (Node.wrapping env native kind (some id) true onRelease) w w' := by
  have hlib : World.Forest { w with library := l } := hf.congr hf.table hf.envs (fun _ => rfl) fun _ => rfl
  obtain ⟨r, v, hrun, hcases⟩ := wrap_cases hlib env native kind (some parent) true onRelease
  unfold Ends
  rw [adopt, run_tryCatch, hrun]
  obtain ⟨e, rfl, rfl, -⟩ | ⟨i, m, hi, hm, ho, -, -⟩ | ⟨q, hu, hq, rfl, rfl⟩ := hcases
  · exact .inl ⟨e, rfl, .ofDestroy hn hc⟩
  · obtain ⟨m', hm', -, hnative⟩ := hlib.stored env native i hi
    obtain rfl := hm.unique hm'
    exact absurd hnative (hn.not_owned hc hm (ho rfl))
  · obtain ⟨i, m, hi, hm, rfl⟩ := hq
    obtain rfl := Option.some.inj (hid.symm.trans hi)
    have hq : w.LeadsTo (some parent) (some id) := ⟨id, n, hid, hl, rfl⟩
    exact .inr ⟨rfl, ⟨fits_wrapping hu hq he, rfl, rfl, hn.not_alive hc⟩,
      .ofCreate (Node.wrapping env native kind (some id) true onRelease) hf hn hc⟩

/-- The library is the one that the handle was created in. -/
lemma library_of_adopt {h : Wrapper} (hf : w.Forest)
    (hr : (adopt env native kind parent onRelease).run w = (.ok h, w')) : w'.library = w.library := by
  obtain ⟨r, v, hrun, hcases⟩ := wrap_cases hf env native kind (some parent) true onRelease
  rw [adopt, run_tryCatch, hrun] at hr
  obtain ⟨e, rfl, -⟩ | ⟨i, n, -, -, -, rfl, rfl⟩ | ⟨q, -, -, rfl, rfl⟩ := hcases
  · cases hr
  · cases hr
    rfl
  · cases hr
    exact library_grow _ _

end Wrapper

/-! ### Connections -/

namespace Connection

/-- A connection is made, whatever it is that is set up in it. -/
def connectWith (setUp : Connection → Act Unit) (env : Nat) (root : Wrapper) (dblink : String) : Act Connection := do
  let parent ← root.live
  let native ← Act.require (fun e => e) (Library.create .connection parent)
  let handle ← Wrapper.adopt env native .connection root .unregisterCallbacks
  let c : Connection := ⟨env, handle⟩
  Act.undoing handle.drop (setUp c)
  Act.note (.connected (handle.native (← get)) dblink)
  pure c

lemma connect_eq (env : Nat) (root : Wrapper) (params : ConnectParams) : connect env root params =
    connectWith (fun c => c.writeAll Library.setAttr params.values) env root params.dblink := by
  rw [← funext (setUp_eq params)]
  rfl

/-- A new connection has a node and a native handle, and nothing has been set up in it yet. -/
structure Begun (env : Nat) (node : Node) (w w' : World) : Prop where
  leaf : NewLeaf node w
  env_eq : node.env = env
  native_eq : node.native = w.library.upcoming
  onRelease_eq : node.onRelease = .unregisterCallbacks
  adds : AddsHandle node w w'
  attrs : w'.library.attrs = w.library.attrs

/-- A connection is not begun, or what is set up in it decides whether it is made or given up. -/
lemma connectWith_cases (setUp : Connection → Act Unit) (root : Wrapper) (dblink : String) (hf : w.Forest)
    (hn : w.Numbered) (he : w.Housed env) : Ends (connectWith setUp env root dblink) w fun r w' =>
      (∃ e, r = .error e ∧ Restored w w') ∨ ∃ node v, Begun env node w v ∧
        ((∃ u notice, (setUp ⟨env, ⟨some w.nodes.next⟩⟩).run v = (.ok (), u) ∧
          r = .ok ⟨env, ⟨some w.nodes.next⟩⟩ ∧ w' = u.note notice) ∨
        ∃ e u, (setUp ⟨env, ⟨some w.nodes.next⟩⟩).run v = (.error e, u) ∧ r = .error e ∧
          w' = Wrapper.drop ⟨some w.nodes.next⟩ u) := by
  refine Ends.live (fun id n hid hl => ?_) fun _ => .inl ⟨_, rfl, .refl w⟩
  refine Ends.require (fun native l hc => ?_) fun l hc => .inl ⟨_, rfl, .ofRefused hl hc⟩
  have hadopt := Wrapper.adopt_cases .unregisterCallbacks hf hn he hid hl hc
  refine Ends.bind (fun h v hr => ?_) fun e v hr => ?_
  · obtain ⟨e, he', -⟩ | ⟨he', hleaf, hs⟩ := hadopt.elim hr
    · cases he'
    obtain rfl := Except.ok.inj he'
    have hlib : World.Forest { w with library := l } := hf.congr hf.table hf.envs (fun _ => rfl) fun _ => rfl
    have hattrs : v.library.attrs = w.library.attrs :=
      (congrArg Library.attrs (Wrapper.library_of_adopt hlib hr)).trans (Library.attrs_of_create hc)
    have hbegun : Begun env _ w v := ⟨hleaf, rfl, Library.upcoming_of_create hc, rfl, hs, hattrs⟩
    refine Ends.bind (fun _ u hset => ?_) fun e u hset => ?_
    · exact .inr ⟨_, v, hbegun, .inl ⟨u, _, ok_of_undoing hset, rfl, rfl⟩⟩
    · obtain ⟨u, hrun, rfl⟩ := error_of_undoing hset
      exact .inr ⟨_, v, hbegun, .inr ⟨e, u, hrun, rfl, rfl⟩⟩
  · obtain ⟨e', he', hrestored⟩ | ⟨he', -⟩ := hadopt.elim hr
    · exact .inl ⟨e, rfl, hrestored⟩
    · cases he'

/-- A connection that is given up is gone, and with it at most the callback that was kept for its number. -/
lemma Begun.drop {node : Node} {v u : World} (h : Begun env node w v) (hf : w.Forest) (hquiet : Quiet v u)
    (hlibrary : AtLibrary v u) : Restored w (Wrapper.drop ⟨some w.nodes.next⟩ u) ∨
      w.callback? env w.library.upcoming ≠ none ∧
        Restored (w.removeCallback env w.library.upcoming).2 (Wrapper.drop ⟨some w.nodes.next⟩ u) := by
  have hlast := h.adds.ofLibrary hquiet.library.same hquiet.library.failures
  rw [← hlibrary] at hlast
  have hrestored := hlast.drop_forgetting hf h.leaf h.onRelease_eq
  rw [h.env_eq, h.native_eq] at hrestored
  by_cases hcallback : w.callback? env w.library.upcoming = none
  · rw [removeCallback_of_none hcallback] at hrestored
    exact .inl hrestored
  · exact .inr ⟨hcallback, hrestored⟩

/-- A connection that cannot be made is gone, and with it at most the callback that was kept for its number. -/
theorem connect_fails (root : Wrapper) (params : ConnectParams) (hf : w.Forest) (hn : w.Numbered)
    (he : w.Housed env) : Ends (connect env root params) w fun r w' => ∀ e, r = .error e →
      Restored w w' ∨ w.callback? env w.library.upcoming ≠ none ∧
        Restored (w.removeCallback env w.library.upcoming).2 w' := by
  rw [connect_eq]
  unfold Ends
  obtain ⟨e, -, hrestored⟩ | ⟨node, v, hbegun, ⟨u, _, -, hok, -⟩ | ⟨e, u, hset, -, hdrop⟩⟩ :=
    connectWith_cases (fun c => c.writeAll Library.setAttr params.values) root params.dblink hf hn he
  · exact fun _ _ => .inl hrestored
  · exact fun _ herror => nomatch hok.symm.trans herror
  · intro _ _
    rw [hdrop]
    exact hbegun.drop hf ((quiet_writeAll Library.faithful_setAttr _ _).rel hset)
      ((atLibrary_writeAll Library.setAttr _ _).rel hset)

end Connection

/-! ### Statements -/

/-- One wrapper more of a node. -/
def Node.more (n : Node) : Node := { n with holders := n.holders + 1 }

lemma World.Live.more (hl : w.Live id n) : (w.modifyNode id Node.more).Live id n.more := by
  refine ⟨?_, hl.2⟩
  rw [nodes_modifyNode, Table.get?_modify, if_pos rfl, hl.1]
  rfl

/-- A node that has got one wrapper more and lost it is what it was. -/
lemma World.Forest.fewer_more (hf : w.Forest) (id : Nat) :
    (w.modifyNode id Node.more).modifyNode id Node.fewer = w := by
  have hself : w.nodes.modify id (Node.fewer ∘ Node.more) = w.nodes := hf.table.modify_eq_self fun n _ => rfl
  have hboth : (w.nodes.modify id Node.more).modify id Node.fewer = w.nodes.modify id (Node.fewer ∘ Node.more) :=
    Table.modify_modify _ _ _ _
  rw [World.modifyNode, World.modifyNode, hboth, hself]

lemma World.Forest.more (hf : w.Forest) (id : Nat) : (w.modifyNode id Node.more).Forest :=
  hf.modifyNode (f := Node.more) (fun _ => rfl) id

lemma World.Fits.more {node : Node} (h : Fits node w) (id : Nat) : Fits node (w.modifyNode id Node.more) := by
  refine ⟨h.fresh, h.bare, fun p hp => ?_, h.env, h.unknown⟩
  obtain ⟨m, hm⟩ := h.parent p hp
  by_cases hi : id = p
  · subst hi
    exact ⟨m.more, hm.more⟩
  · exact ⟨m, (get?_modifyNode_of_ne (Ne.symm hi) _ _).trans hm.1, hm.2⟩

namespace Statement
variable {conn : Connection} {s : Statement} {node : Node} {sql : String} {mode : PrepareMode}

/-- A statement has been created: besides the new leaf its connection has got a wrapper more. -/
structure MadeFrom (conn : Connection) (w : World) (s : Statement) (w' : World) : Prop where
  made : s = ⟨conn.env, conn, ⟨some w.nodes.next⟩⟩
  leaf : ∃ id n node, conn.handle.node = some id ∧ w.Live id n ∧ NewLeaf node w ∧
    node.onRelease = .freeBinds ∧ node.Keeps .fresh ∧ AddsHandle node (w.modifyNode id Node.more) w'

/-- A new leaf becomes a statement, whatever it is that is noted. -/
lemma madeFrom (hf : w.Forest) (hid : conn.handle.node = some id) (hl : w.Live id n) (hb : NewLeaf node w)
    (hparent : node.parent = some id) (haction : node.onRelease = .freeBinds) (hx : node.extra = none)
    (hs : AddsHandle node w w') (notice : Notice) :
    Ends (do
      Act.undoing (Wrapper.drop ⟨some w.nodes.next⟩) (Wrapper.setExtra ⟨some w.nodes.next⟩ (.statement .fresh))
      Act.note notice
      let c ← modifyGet conn.clone
      pure (⟨conn.env, c, ⟨some w.nodes.next⟩⟩ : Statement)) w' fun r v => ∃ s, r = .ok s ∧ MadeFrom conn w s v := by
  have hset : (Wrapper.setExtra ⟨some w.nodes.next⟩ (.statement .fresh)).run w' =
      (.ok (), w'.modifyNode w.nodes.next (Node.keeping .fresh)) :=
    Wrapper.run_setExtra rfl (hs.live hf hb.toFits) hx _
  have hkeep := hs.edit (f := Node.keeping .fresh) hf hb.toFits rfl rfl rfl rfl
  have hleaf : NewLeaf (node.keeping .fresh) w :=
    ⟨⟨hb.fresh, hb.bare, hb.parent, hb.env, hb.unknown⟩, hb.holders, hb.owned, hb.new⟩
  have hmore := hkeep.aside (f := Node.more) hf hleaf.toFits hl.1 fun _ _ => rfl
  have hconn : (w'.modifyNode w.nodes.next (Node.keeping .fresh)).nodes.get? id = some (n.addChild w.nodes.next) := by
    rw [hkeep.nodes, hf.get?_grow_of_get? hleaf.toFits hl.1]
    exact congrArg some (if_pos hparent)
  generalize w'.modifyNode w.nodes.next (Node.keeping .fresh) = u at hset hmore hconn
  have hclone : conn.handle.clone (u.note notice) = (conn.handle, (u.note notice).modifyNode id Node.more) := by
    have hlive : (u.note notice).Live id (n.addChild w.nodes.next) := ⟨hconn, hl.2⟩
    rw [Wrapper.clone, Wrapper.liveNode?_eq_some.mpr ⟨hid, hlive⟩]
    exact congrArg (fun h => (h, (u.note notice).modifyNode id Node.more)) (congrArg Wrapper.mk hid.symm)
  have hundone : (Act.undoing (Wrapper.drop ⟨some w.nodes.next⟩)
      (Wrapper.setExtra ⟨some w.nodes.next⟩ (.statement .fresh))).run w' = (.ok (), u) := by
    rw [undoing, run_tryCatch, hset]
  have hcopy : (modifyGet conn.clone : Act Connection).run (u.note notice) =
      (.ok conn, (u.note notice).modifyNode id Node.more) := by
    rw [run_modifyGet, Connection.clone, hclone]
  refine .after hundone (.after (x := ()) (v := u.note notice) rfl (.after hcopy ?_))
  exact ⟨_, rfl, rfl, id, n, _, hid, hl, hleaf, haction, rfl, hmore.nodes, hmore.table, hmore.stores,
    hmore.envs, hmore.callbacks, hmore.handles, hmore.listed, hmore.sturdy⟩

/-- A statement that cannot be created leaves nothing behind. -/
theorem create_cases (conn : Connection) (hf : w.Forest) (hn : w.Numbered) (he : w.Housed conn.env) :
    Ends (create conn) w fun r w' => (∃ e, r = .error e ∧ Restored w w') ∨ ∃ s, r = .ok s ∧ MadeFrom conn w s w' := by
  apply Ends.get
  split
  · exact .inl ⟨_, rfl, .refl w⟩
  rename_i hnull
  obtain ⟨id, n, hid, hl⟩ := Wrapper.isNull_eq_false.mp (Bool.eq_false_iff.mpr hnull)
  dsimp only
  rw [Wrapper.native_of_live hid hl]
  refine Ends.require (fun native l hc => ?_) fun l hc => .inl ⟨_, rfl, .ofRefused hl hc⟩
  have hadopt := Wrapper.adopt_cases .freeBinds hf hn he hid hl hc
  refine Ends.bind (fun h v hr => ?_) fun e v hr => ?_
  · obtain ⟨e, he', -⟩ | ⟨he', hleaf, hs⟩ := hadopt.elim hr
    · cases he'
    obtain rfl := Except.ok.inj he'
    exact .inr (madeFrom hf hid hl hleaf rfl rfl rfl hs _)
  · obtain ⟨e', -, hrestored⟩ | ⟨he', -⟩ := hadopt.elim hr
    · exact .inl ⟨e, rfl, hrestored⟩
    · cases he'

/-- A text that is refused for a new statement has changed nothing but what the statement keeps. -/
lemma prepare_addsHandle (hid : s.handle.node = some w.nodes.next) (hf : w.Forest) (hfits : Fits node w)
    (hx : node.Keeps .fresh) (hs : AddsHandle node w w') (mode : PrepareMode) (sql : String) :
    Ends (s.prepare mode sql) w' fun r v => ∀ e, r = .error e →
      AddsHandle (node.keeping (StatementData.fresh.reset sql)) w v := by
  have hl := hs.live hf hfits
  have hkeep := hs.edit (f := Node.keeping (StatementData.fresh.reset sql)) hf hfits rfl rfl rfl rfl
  have hput : (s.putData (StatementData.fresh.reset sql) w').freeBuffers [] =
      w'.modifyNode w.nodes.next (Node.keeping (StatementData.fresh.reset sql)) := by
    rw [putData_of_live hid hl]
    rfl
  have hnone : s.releaseResultsets.run w' = (.ok 0, w') := by
    rw [releaseResultsets, run_modifyGet, Wrapper.releaseChildren, Wrapper.liveNode?_eq_some.mpr ⟨hid, hl⟩]
    dsimp only
    rw [hfits.bare]
    rfl
  refine .liveOf hid hl (.after hnone (.dataOf (data?_eq_some.mpr ⟨_, _, hid, hl, hx⟩) (.afterUpdate ?_)))
  change Ends _ ((s.putData (StatementData.fresh.reset sql) w').freeBuffers []) _
  rw [hput]
  refine Ends.require (fun _ l _ e he => by cases he) fun l hp _ _ => ?_
  have hknown : w'.Answers node.native := ⟨_, _, hl, rfl⟩
  have hq := (Library.Quiet.prepare hknown hp).trans (.lastError l)
  exact hkeep.ofLibrary hq.same hq.failures

/-- A new statement that is given up leaves nothing behind. -/
lemma drop_addsHandle {v : World} (hf : w.Forest) (hheld : ∀ id n, w.Live id n → 0 < n.holders)
    (hid : conn.handle.node = some id) (hl : w.Live id n) (hb : NewLeaf node w) (haction : node.onRelease = .freeBinds)
    (hs : AddsHandle node (w.modifyNode id Node.more) v) :
    Restored w (drop ⟨conn.env, conn, ⟨some w.nodes.next⟩⟩ v) := by
  have hmore := hf.more id
  have hfits := hb.toFits.more id
  have hconn : v.nodes.get? id = some (if node.parent = some id then n.more.addChild w.nodes.next else n.more) :=
    (hs.nodes id).trans (hmore.get?_grow_of_get? hfits hl.more.1)
  have hpos := hheld id n hl
  have hdrop : conn.drop v = v.modifyNode id Node.fewer := by
    have hhandle : conn.handle = ⟨some id⟩ := congrArg Wrapper.mk hid
    rw [Connection.drop, hhandle, drop_eq hconn, if_neg]
    split
    · change n.holders + 1 ≠ 1
      omega
    · change n.holders + 1 ≠ 1
      omega
  have hlast := hs.aside (f := Node.fewer) hmore hfits hl.more.1 fun _ _ => rfl
  rw [hf.fewer_more, ← hdrop] at hlast
  exact hlast.drop hf hb (by rw [haction]; nofun)

end Statement

/-- A statement that cannot be created with its text leaves nothing behind. -/
theorem Connection.prepare_fails (conn : Connection) (sql : String) (hf : w.Forest)
    (hheld : ∀ id n, w.Live id n → 0 < n.holders) (hn : w.Numbered) (he : w.Housed conn.env) :
    Ends (conn.prepare sql) w fun r w' => ∀ e, r = .error e → Restored w w' := by
  have hcreate := Statement.create_cases conn hf hn he
  refine Ends.bind (fun s v hr => ?_) fun e v hr => ?_
  · obtain ⟨e, he', -⟩ | ⟨s', he', hmade⟩ := hcreate.elim hr
    · cases he'
    obtain rfl := Except.ok.inj he'
    obtain ⟨rfl, id, n, node, hid, hl, hb, haction, hx, hs⟩ := hmade
    refine Ends.bind (fun _ u _ => nofun) fun e u hundone _ _ => ?_
    obtain ⟨u, hprepare, rfl⟩ := error_of_undoing hundone
    have hlast := (Statement.prepare_addsHandle rfl (hf.more id) (hb.toFits.more id) hx hs .prepare sql).elim
      hprepare e rfl
    have hleaf : NewLeaf (node.keeping (StatementData.fresh.reset sql)) w :=
      ⟨⟨hb.fresh, hb.bare, hb.parent, hb.env, hb.unknown⟩, hb.holders, hb.owned, hb.new⟩
    exact Statement.drop_addsHandle hf hheld hid hl hleaf haction hlast
  · obtain ⟨e', -, hrestored⟩ | ⟨s, he', -⟩ := hcreate.elim hr
    · exact fun _ _ => hrestored
    · cases he'

/-! ### Bare handles -/

/-- A handle that cannot be allocated is gone, unless its number is wrapped already: then it is left behind. -/
theorem Environment.allocate_fails (e : Environment) (kind : HandleKind) (parent : Option Wrapper) (hf : w.Forest) :
    Ends (e.allocate kind parent) w fun r w' => ∀ err, r = .error err →
      Restored w w' ∨ (w.stored? e.env w.library.upcoming).isSome = true ∧ ∃ a l,
        Library.create kind a w.library = (some w.library.upcoming, l) ∧ w' = { w with library := l } := by
  unfold allocate
  dsimp only
  refine Ends.live (fun id n hid hl => ?_) fun _ _ _ => .inl (.refl w)
  refine Ends.require (fun native l hc => ?_) fun l hc _ _ => .inl (.ofRefused hl hc)
  have hlib : World.Forest { w with library := l } := hf.congr hf.table hf.envs (fun _ => rfl) fun _ => rfl
  obtain ⟨r, v, hrun, hcases⟩ := Wrapper.wrap_cases hlib e.env native kind (some (parent.getD e.root)) true .nothing
  unfold Ends
  rw [hrun]
  rintro err rfl
  obtain ⟨e', -, rfl, hnull | ⟨-, hs⟩ | hno⟩ | ⟨i, m, -, -, -, he', -⟩ | ⟨q, -, -, he', -⟩ := hcases
  · have hfresh := (Library.created hc).fresh
    simp [Address.isNull, hfresh] at hnull
  · rw [← Library.upcoming_of_create hc]
    exact .inr ⟨hs, n.native, l, hc, rfl⟩
  · exact absurd ⟨id, n, hid, hl, rfl⟩ (hno (some id))
  · cases he'
  · cases he'

end DbClient
