import DbClient.Proofs.Moves.Binding

/-! The operations that open statements and resultsets as paths of moves. -/
namespace DbClient
open Act World

variable {t : Terms} {hs : Multiset Nat} {w w' : World} {id : Nat} {n : Node}

namespace Statement

/-- A statement gives up its connection, then its handle. -/
lemma path_drop (s : Statement) (w : World) : Path t (s.points + hs, w) (hs, s.drop w) := by
  have hconn : Path t (s.conn.handle.points + (s.handle.points + hs), w) (s.handle.points + hs, s.conn.drop w) :=
    s.conn.handle.path_drop w
  rw [← Multiset.add_assoc] at hconn
  exact Relation.ReflTransGen.trans hconn (s.handle.path_drop _)

/-- What is done with the handle of a new statement. -/
lemma continues_create (conn : Connection) (parent : Address) : Wrapper.Continues t hs conn.env points
    (fun native handle => do
      Act.undoing handle.drop (handle.setExtra (.statement .fresh))
      Act.note (.allocated native parent)
      let c ← modifyGet conn.clone
      pure ⟨conn.env, c, handle⟩) := by
  intro native handle v _ hlive
  obtain ⟨id, n, hid, hl, ho⟩ := hlive
  have hset : Does (Course t (handle.points + hs)) (handle.setExtra (.statement .fresh)) v := by
    refine handle.course_setExtra _ fun id' n' d hid' hl' hd => ⟨(Extra.statement.inj hd).symm, ?_⟩
    obtain rfl := Option.some.inj (hid.symm.trans hid')
    obtain rfl := hl.unique hl'
    exact ho
  refine Takes.bind (Takes.undoing handle.path_drop hset) fun _ u _ _ => Takes.note _ ?_
  intro _
  have hclone : Path t (handle.points + hs, u.note (.allocated native parent))
      ((conn.handle.clone (u.note (.allocated native parent))).1.points + (handle.points + hs),
        (conn.handle.clone (u.note (.allocated native parent))).2) := conn.handle.path_clone _
  rw [← Multiset.add_assoc] at hclone
  exact hclone

theorem takes_create (conn : Connection) (he : w.Housed conn.env) :
    Takes t hs hs points (create conn) w := by
  apply Takes.get
  split
  · exact fun _ => Relation.ReflTransGen.refl
  · rename_i hnull
    obtain ⟨id, n, hid, hl⟩ := Wrapper.isNull_eq_false.mp (Bool.eq_false_iff.mpr hnull)
    dsimp only
    rw [Wrapper.native_of_live hid hl]
    exact Wrapper.takes_adopted he hid hl (continues_create conn n.native)

end Statement

/-- A statement that is created with a text is dropped if the text is refused. -/
theorem Connection.takes_prepare (c : Connection) (sql : String) (he : w.Housed c.env) :
    Takes t hs hs Statement.points (c.prepare sql) w := by
  refine (Statement.takes_create c he).bind fun s v _ _ => ?_
  exact (Takes.undoing s.path_drop (s.course_prepare .prepare sql)).bind fun _ _ _ _ => Takes.pure s

namespace Statement

/-! ### Resultsets -/

/-- A primitive that asks for a resultset is quiet, and gives only what the statement lists. -/
structure Asks (ask : Address → Library → Option Address × Library) : Prop where
  quiet : ∀ (known : Address → Prop) stmt (l : Library), known stmt → l.Quiet known (ask stmt l).2
  listed : ∀ stmt l l' a, ask stmt l = (some a, l') →
    ∃ st, l'.stmts.get? stmt = some st ∧ a ∈ st.resultsets

lemma asks_resultset : Asks Library.resultset where
  quiet _ _ l hk := .resultset hk l
  listed stmt l l' a h := by
    obtain ⟨-, hb⟩ := Library.run_some h
    split at hb
    · cases hb
    · rename_i st hst
      split at hb
      · cases hb
      · rename_i first rest hr
        cases hb
        refine ⟨{ st with cursor := some 0 }, ?_, ?_⟩
        · change (l.stmts.put stmt _).get? stmt = _
          rw [Assoc.get?_put, if_pos rfl]
        · rw [hr]
          exact List.mem_cons_self

lemma asks_nextResultset : Asks Library.nextResultset where
  quiet _ _ l hk := .nextResultset hk l
  listed stmt l l' a h := by
    obtain ⟨-, hb⟩ := Library.run_some h
    split at hb
    · cases hb
    · rename_i st hst
      dsimp only at hb
      obtain ⟨h1, rfl⟩ := Prod.mk.inj hb
      refine ⟨{ st with cursor := some (min ((st.cursor.map (· + 1)).getD 0) st.resultsets.length) }, ?_,
        List.mem_of_getElem? h1⟩
      change (l.stmts.put stmt _).get? stmt = _
      rw [Assoc.get?_put, if_pos rfl]

/-- A resultset that a statement lists is wrapped below it. -/
lemma takes_lend {st : NativeStatement} {a : Address} {env : Nat} {h : Wrapper} (he : w.Housed env)
    (hid : h.node = some id) (hl : w.Live id n) (hst : w.library.stmts.get? n.native = some st)
    (ha : a ∈ st.resultsets) :
    Takes t hs hs Wrapper.points (Wrapper.wrap env a .resultset (some h) false .nothing) w := by
  intro hw
  obtain ⟨r, w', hrun, hcases⟩ := Wrapper.wrap_cases hw.forest env a .resultset (some h) false .nothing
  rw [hrun]
  obtain ⟨e, rfl, rfl, -⟩ | ⟨id', m, -, hl', -, rfl, rfl⟩ | ⟨q, hu, hq, rfl, rfl⟩ := hcases
  · exact Relation.ReflTransGen.refl
  · exact (Move.acquire hl').gains
  · have hfits : Fits (Node.wrapping env a .resultset q false .nothing) w := fits_wrapping hu hq he
    obtain ⟨id', _, hid', -, rfl⟩ := hq
    obtain rfl := Option.some.inj (hid.symm.trans hid')
    have hm : Move t hs w (w.nodes.next ::ₘ hs)
      (w.grow (Node.wrapping env a .resultset (some id) false .nothing)) :=
      .lend hl rfl hst ha hfits rfl rfl rfl rfl
    exact hm.gains

/-- The resultset that a statement is asked for is wrapped, if there is one. -/
theorem takes_takeResultset (s : Statement) (operation : String)
    {ask : Address → Library → Option Address × Library} (hask : Asks ask) (he : w.Housed s.env) :
    Takes t hs hs (fun r => r.elim 0 fun rs => rs.handle.points) (s.takeResultset operation ask) w := by
  refine Takes.live fun id n hid hl => ?_
  have hdata : Does Quiet s.data w := by
    rw [← bind_pure s.data]
    exact Does.data fun _ _ _ _ _ _ => Does.pure _
  refine Takes.bind_course (Course.ofQuiet hdata) fun d w' hrun _ => ?_
  obtain ⟨rfl, -⟩ := ok_of_data hrun
  have hstage : Does Quiet (requireStatus d .executed operation) w' := by
    rw [← bind_pure (requireStatus d .executed operation)]
    exact Does.requireStatus fun _ => Does.pure _
  refine Takes.bind_course (Course.ofQuiet hstage) fun _ v hrun' _ => ?_
  obtain ⟨rfl, -⟩ := ok_of_requireStatus hrun'
  have hq : Does Quiet (optional (fun e => (e.withSql d.sql).withHandle n.native) (ask n.native)) v :=
    Quiet.optional fun l => hask.quiet _ _ l ⟨id, n, hl, rfl⟩
  refine Takes.bind_course (Course.ofQuiet hq) fun r u hopt _ => ?_
  have hquiet := hq.rel hopt
  cases r with
  | none => exact Takes.pure_none none rfl
  | some a =>
    obtain ⟨l, hf, rfl⟩ := ok_of_optional hopt
    obtain ⟨st, hst, ha⟩ := hask.listed _ _ _ _ hf
    have hl' : World.Live { v with library := l } id n := hl
    have he' : World.Housed { v with library := l } s.env := he
    exact (takes_lend he' hid hl' hst ha).bind fun h _ _ _ _ => Relation.ReflTransGen.refl

lemma takes_resultset (s : Statement) (he : w.Housed s.env) :
    Takes t hs hs (fun r => r.elim 0 fun rs => rs.handle.points) s.resultset w :=
  s.takes_takeResultset _ asks_resultset he

lemma takes_nextResultset (s : Statement) (he : w.Housed s.env) :
    Takes t hs hs (fun r => r.elim 0 fun rs => rs.handle.points) s.nextResultset w :=
  s.takes_takeResultset _ asks_nextResultset he

end Statement
end DbClient
