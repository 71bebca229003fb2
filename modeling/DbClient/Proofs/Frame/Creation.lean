import DbClient.Proofs.Frame.Statements
import DbClient.Proofs.Ownership.Moves

/-! The frame of the creation of statements: a new statement has a node of its own, so that the data of those that
there were stay as they are. -/
namespace DbClient
open Act World

variable {w w' : World} {id : Nat} {V : Table HostVar → Table HostVar → Prop}
  {R : StatementData → StatementData → Prop} {t : Terms}

/-- To change a node that was not there at first is no change of one that was. -/
lemma World.Alters.beyond {j : Nat} {f : Node → Node} (h : Alters V id R w w') (hj : w.nodes.next ≤ j) :
    Alters V id R w (w'.modifyNode j f) := by
  refine ⟨h.vars, h.envs, h.limits, h.nodes, fun hid n d hd => h.data hid n d ?_⟩
  obtain ⟨⟨hn, hr⟩, hx⟩ := hd
  rw [nodes_modifyNode, Table.get?_modify, if_neg (Nat.ne_of_gt (Nat.lt_of_lt_of_le hid hj))] at hn
  exact ⟨⟨hn, hr⟩, hx⟩

namespace Wrapper
variable {env : Nat} {native : Address} {kind : HandleKind} {parent : Wrapper} {onRelease : ReleaseAction} {h : Wrapper}

/-- A handle that has been adopted has been wrapped. -/
lemma ok_of_adopt (hr : (adopt env native kind parent onRelease).run w = (.ok h, w')) :
    (wrap env native kind (some parent) true onRelease).run w = (.ok h, w') := by
  rw [adopt, run_tryCatch] at hr
  rcases hw : (wrap env native kind (some parent) true onRelease).run w with ⟨e | x, v⟩
  · rw [hw] at hr
    dsimp only at hr
    rw [run_bind, run_native] at hr
    cases hr
  · rw [hw] at hr
    exact hr

/-- A handle that has no node gets one. -/
lemma grown_of_adopt (hw : w.Forest) (hs : w.stored? env native = none)
    (hr : (adopt env native kind parent onRelease).run w = (.ok h, w')) : ∃ q, w.LeadsTo (some parent) q ∧
      h = ⟨some w.nodes.next⟩ ∧ w' = w.grow (Node.wrapping env native kind q true onRelease) := by
  obtain ⟨r, v, hrun, hcases⟩ := wrap_cases hw env native kind (some parent) true onRelease
  obtain ⟨rfl, rfl⟩ := Prod.mk.inj (hrun.symm.trans (ok_of_adopt hr))
  obtain ⟨e, he, -⟩ | ⟨i, n, hi, -⟩ | ⟨q, -, hq, hok, rfl⟩ := hcases
  · cases he
  · rw [hs] at hi
    cases hi
  · exact ⟨q, hq, Except.ok.inj hok, rfl⟩

/-- A copy of a wrapper changes no more than the number of holders of a node. -/
lemma live_clone {n : Node} (h : Wrapper) (hl : w.Live id n) :
    ∃ holders, (h.clone w).2.Live id { n with holders := holders } := by
  unfold clone
  split
  · rename_i i _ _
    change ∃ holders, World.Live (w.modifyNode i fun n => { n with holders := n.holders + 1 }) id _
    by_cases hi : i = id
    · refine ⟨n.holders + 1, ?_, hl.2⟩
      rw [nodes_modifyNode, Table.get?_modify, if_pos hi, hl.1]
      rfl
    · refine ⟨n.holders, ?_, hl.2⟩
      rw [nodes_modifyNode, Table.get?_modify, if_neg hi]
      exact hl.1
  · exact ⟨n.holders, hl⟩

lemma run_setExtra {n : Node} (hid : h.node = some id) (hl : w.Live id n) (hx : n.extra = none) (e : Extra) :
    (h.setExtra e).run w = (.ok (), w.modifyNode id fun n => { n with extra := some e }) := by
  unfold setExtra
  rw [run_bind, run_get]
  dsimp only
  simp only [liveNode?_eq_some.mpr ⟨hid, hl⟩, run_update, hx]
  rfl

end Wrapper

namespace Statement

/-- A statement has been created: its node is new, and its data are those of a fresh statement. -/
structure Created (conn : Connection) (w : World) (s : Statement) (w' : World) : Prop where
  node : s.handle.node = some w.nodes.next
  env : s.env = conn.env
  data : ∃ n, w'.Live w.nodes.next n ∧ n.Keeps .fresh ∧ n.env = conn.env ∧ n.owned = true

variable [Std.Refl V] [Std.Refl R] [IsTrans _ V] [IsTrans _ R]

theorem ends_create (id : Nat) (conn : Connection) (hw : w.Forest) (how : Owns t w) (he : w.Housed conn.env) :
    Ends (create conn) w fun r w' => Alters V id R w w' ∧ ∀ s, r = .ok s → Created conn w s w' := by
  apply Ends.get
  split
  · exact ⟨Alters.refl w, nofun⟩
  dsimp only
  refine Ends.require (fun native l hc => ?_) fun l _ => ⟨.of_eq rfl rfl rfl, nofun⟩
  have hlib : Alters V id R w { w with library := l } := .of_eq rfl rfl rfl
  refine Ends.bind (fun h v hadopt => ?_) fun e v hadopt =>
    ⟨hlib.trans ((Wrapper.alters_adopt _ _ _ _ _).rel hadopt), nofun⟩
  have hgrow := hlib.trans ((Wrapper.alters_adopt _ _ _ _ _).rel hadopt)
  have hu : w.stored? conn.env native = none := how.stranger hw (Library.created hc) _
  have hv : World.Forest { w with library := l } := hw.congr hw.table hw.envs (fun _ => rfl) fun _ => rfl
  obtain ⟨q, hq, rfl, rfl⟩ := Wrapper.grown_of_adopt (w := { w with library := l }) hv hu hadopt
  have hfits : Fits (Node.wrapping conn.env native .statement q true .freeBinds) { w with library := l } :=
    fits_wrapping hu hq he
  have hnew := hv.get?_grow_next hfits
  generalize World.grow (Node.wrapping conn.env native .statement q true .freeBinds) { w with library := l } = u
    at hgrow hnew
  change u.nodes.get? w.nodes.next = _ at hnew
  have hset := Wrapper.run_setExtra (h := ⟨some w.nodes.next⟩) rfl ⟨hnew, rfl⟩ rfl (.statement .fresh)
  have hfresh := hgrow.beyond (f := fun n => { n with extra := some (.statement .fresh) }) (Nat.le_refl _)
  have hlive : World.Live (u.modifyNode w.nodes.next fun n => { n with extra := some (.statement .fresh) })
      w.nodes.next ((Node.wrapping conn.env native .statement q true .freeBinds).keeping .fresh) := by
    refine ⟨?_, rfl⟩
    rw [nodes_modifyNode, Table.get?_modify, if_pos rfl, hnew]
    rfl
  unfold Ends
  rw [run_bind, undoing, run_tryCatch, hset]
  generalize (u.modifyNode w.nodes.next fun n => { n with extra := some (.statement .fresh) }) = x at hfresh hlive
  have hnote : Alters V id R x (x.note (.allocated native (conn.handle.native w))) := .of_eq rfl rfl rfl
  refine ⟨(hfresh.trans hnote).trans (conn.handle.alters_clone _), fun s hs => ?_⟩
  obtain rfl := Except.ok.inj hs
  obtain ⟨count, hm⟩ := conn.handle.live_clone (w := x.note (.allocated native (conn.handle.native w))) hlive
  exact ⟨rfl, rfl, _, hm, rfl, rfl, rfl⟩

lemma alters_create (conn : Connection) (hw : w.Forest) (how : Owns t w) (he : w.Housed conn.env) :
    Does (Alters V id R) (create conn) w := (ends_create id conn hw how he).1

end Statement

/-- Data stay as they are where that matters. -/
def StatementData.Untouched (P : Prop) (c d : StatementData) : Prop := P → c = d

instance {P : Prop} : Std.Refl (StatementData.Untouched P) := ⟨fun _ _ => rfl⟩

instance {P : Prop} : IsTrans StatementData (StatementData.Untouched P) := ⟨fun _ _ _ h h' hP => (h hP).trans (h' hP)⟩

/-- A statement that is prepared as soon as it has been created is no statement that was there. -/
lemma Connection.alters_prepare [Std.Refl V] [Std.Refl R] [IsTrans _ V] [IsTrans _ R] (c : Connection) (sql : String)
    (hw : w.Forest) (how : Owns t w) (he : w.Housed c.env) : Does (Alters V id R) (c.prepare sql) w := by
  unfold Does prepare
  rw [run_bind]
  obtain ⟨hcreate, hmade⟩ := Statement.ends_create (V := V) (R := R) id c hw how he
  rcases hr : (Statement.create c).run w with ⟨e | s, v⟩ <;> rw [hr] at hcreate hmade
  · exact hcreate
  · have hnew := (hmade s rfl).node
    have hstrange : s.handle.node = some id → ¬id < w.nodes.next := fun hid hlt =>
      absurd (Option.some.inj (hid.symm.trans hnew)) (Nat.ne_of_lt hlt)
    have hprepare : Does (Alters V id (StatementData.Untouched (id < w.nodes.next))) (s.prepare .prepare sql) v :=
      s.alters_prepare fun hid _ => ⟨fun hlt => absurd hlt (hstrange hid), fun hlt => absurd hlt (hstrange hid)⟩
    have hend : Does (Alters V id (StatementData.Untouched (id < w.nodes.next))) (do
        Act.undoing s.drop (s.prepare .prepare sql)
        pure s) v := (Alters.undoing hprepare s.alters_drop).seq fun _ _ _ => Does.pure _
    exact hcreate.later hend fun hlt c d hR => hR hlt ▸ refl_of R c

end DbClient
