import DbClient.Proofs.Application.BindSetLaw

/-! The law of preparation in any application: what a statement is after it has been given a text, and what it is
good for after a text has been refused. -/
namespace DbClient
open Act World

variable {t : Terms} {a b : Application} {op : Operation} {id : Nat} {n m : Node} {d e : StatementData} {w w' : World}
  {s : Statement}

/-! ### Resultsets lie below their statements -/

namespace Statement

/-- A statement that gives a resultset has been executed, and has wrapped what the native library gave. -/
lemma some_of_takeResultset {operation : String} {ask : Address → Library → Option Address × Library} {rs : Resultset}
    (hr : (s.takeResultset operation ask).run w = (.ok (some rs), w')) : ∃ id n d r l, s.handle.node = some id ∧
      w.Live id n ∧ n.Keeps d ∧ Status.executed.rank ≤ d.status.rank ∧ ask n.native w.library = (some r, l) ∧
      (Wrapper.wrap s.env r .resultset (some s.handle) false .nothing).run { w with library := l } =
        (.ok rs.handle, w') := by
  obtain ⟨stmt, v, hlive, hafter⟩ := ok_of_bind hr
  obtain ⟨rfl, id, n, hid, hl, rfl⟩ := ok_of_live hlive
  obtain ⟨d, v, hdata, hgate⟩ := ok_of_bind hafter
  obtain ⟨rfl, hd⟩ := ok_of_data hdata
  obtain ⟨_, v, hstage, hask⟩ := ok_of_bind hgate
  obtain ⟨rfl, hrank⟩ := ok_of_requireStatus hstage
  obtain ⟨r, u, hopt, htake⟩ := ok_of_bind hask
  have hx : n.Keeps d := keeps_of_data? hid hl hd
  cases r with
  | none => cases htake
  | some r =>
    obtain ⟨l, hf, rfl⟩ := ok_of_optional hopt
    obtain ⟨h, x, hwrap, hend⟩ := ok_of_bind htake
    obtain ⟨h1, rfl⟩ := Prod.mk.inj hend
    obtain rfl := Option.some.inj (Except.ok.inj h1)
    exact ⟨id, n, d, r, l, hid, hl, hx, hrank, hf, hwrap⟩

/-- A resultset that a statement gives is wrapped below the node of the statement, which keeps the native handle. -/
lemma lent_of_takeResultset {hs : Multiset Nat} {operation : String}
    {ask : Address → Library → Option Address × Library} (hask : Asks ask) {rs : Resultset} (ht : t.foreign = false)
    (hw : Sound hs w) (how : Owns t w) (he : w.Housed s.env)
    (hr : (s.takeResultset operation ask).run w = (.ok (some rs), w')) : ∃ id j m, s.handle.node = some id ∧
      rs.handle.node = some j ∧ w'.Live j m ∧ m.parent = some id ∧ m.kind = .resultset ∧ m.owned = false := by
  obtain ⟨id, n, d, r, l, hid, hl, -, -, hf, hwrap⟩ := some_of_takeResultset hr
  obtain ⟨st, hst, hmem⟩ := hask.listed _ _ _ _ hf
  have hq : Quiet w { w with library := l } := by
    have := hask.quiet w.Answers n.native w.library ⟨id, n, hl, rfl⟩
    rw [hf] at this
    exact Quiet.ofLibrary this
  have hpath : Path t (hs, w) (hs, { w with library := l }) := (Move.quiet hq).path
  have hu : Owns t { w with library := l } := Path.owns ht hpath hw how
  have hforest : World.Forest { w with library := l } := (hw.still (.of_quiet hq)).forest
  have hlisted : r ∈ Library.listed l n.native := by rwa [Library.listed_of_get? hst]
  obtain ⟨q, v, hrun, hcases⟩ := Wrapper.wrap_cases hforest s.env r .resultset (some s.handle) false .nothing
  obtain ⟨rfl, rfl⟩ := Prod.mk.inj (hrun.symm.trans hwrap)
  obtain ⟨e, he', -⟩ | ⟨j, m, hstored, hm, -, hok, rfl⟩ | ⟨q, hnone, hq', hok, rfl⟩ := hcases
  · cases he'
  · -- the resultset was wrapped before, which only the statement that lists it can have done
    obtain ⟨m', hm', -, rfl⟩ := hforest.stored _ _ _ hstored
    obtain rfl := hm.unique hm'
    obtain ⟨hparent, hkind⟩ := hu.below_of_listed (show World.Live _ id n from hl) hm hlisted
    have hlent : m.owned = false :=
      Bool.eq_false_iff.mpr fun ho => hu.coherent.not_listed (hu.owned j m hm ho) hlisted
    refine ⟨id, j, { m with holders := m.holders + 1 }, hid, congrArg Wrapper.node (Except.ok.inj hok), ⟨?_, hm.2⟩,
      hparent, hkind, hlent⟩
    change (w.nodes.modify j _).get? j = _
    rw [Table.get?_modify, if_pos rfl, show w.nodes.get? j = some m from hm.1]
    rfl
  · have hfits : Fits (Node.wrapping s.env r .resultset q false .nothing) { w with library := l } :=
      fits_wrapping hnone hq' he
    obtain ⟨i, k, hi, hk, rfl⟩ := hq'
    exact ⟨i, _, _, hi, congrArg Wrapper.node (Except.ok.inj hok), ⟨hforest.get?_grow_next hfits, rfl⟩, rfl, rfl, rfl⟩

lemma below_of_takeResultset {hs : Multiset Nat} {operation : String}
    {ask : Address → Library → Option Address × Library} (hask : Asks ask) {rs : Resultset} (ht : t.foreign = false)
    (hw : Sound hs w) (how : Owns t w) (he : w.Housed s.env)
    (hr : (s.takeResultset operation ask).run w = (.ok (some rs), w')) : ∃ id j m, s.handle.node = some id ∧
      rs.handle.node = some j ∧ w'.Live j m ∧ m.parent = some id ∧ m.kind = .resultset := by
  obtain ⟨id, j, m, hid, hj, hm, hparent, hkind, -⟩ := lent_of_takeResultset hask ht hw how he hr
  exact ⟨id, j, m, hid, hj, hm, hparent, hkind⟩

end Statement

/-! ### Texts that have been refused -/

namespace Operation

/-- An operation gives a text to the statement of a node that the native library takes. -/
def Renews (id : Nat) (w : World) : Operation → Prop
  | statement s (.prepare mode sql) =>
    s.handle.node = some id ∧ ((s.prepare mode sql).run w).1.toOption.isSome
  | statement s (.execute sql) => s.handle.node = some id ∧ ((s.prepare .prepare sql).run w).1.toOption.isSome
  | _ => False

/-- What is not a preparation leaves a statement closed. -/
lemma bears_closed (hp : ¬op.Prepares id) (w : World) :
    op.Bears id (StatementData.Preserves fun d => d.status = .closed) w := by
  have hnever : ∀ {c : StatementData} {P : Prop}, Status.prepared.rank ≤ c.status.rank → c.status = .closed → P := by
    intro c P hrank hc
    rw [hc] at hrank
    exact absurd hrank (by decide)
  cases op with
  | statement s k =>
    intro hid
    cases k with
    | prepare mode sql => exact absurd hid hp
    | execute sql => exact absurd hid hp
    | executePrepared => exact fun c hrank hc => hnever hrank hc
    | bind index var direction kind size => exact fun c o _ ho hc => hnever ho.stage hc
    | setArraySize size => exact fun c _ hrank hc => hnever hrank hc
    | allowRebinding allow => exact fun _ hc => hc
    | setFetchMode mode => exact fun _ hc => hc
    | _ => trivial
  | _ => trivial

end Operation

namespace Application

/-- No operation of a list gives a text to the statement of a node that the native library takes. -/
def Refuses (id : Nat) : List Operation → Application → Prop := Throughout fun op w => ¬op.Renews id w

lemma closed_prepare {mode : PrepareMode} {sql : String} {r : Except ClientError Unit} (hw : w.Forest)
    (hid : s.handle.node = some id) (hd : w.HasData id n d) (hr : (s.prepare mode sql).run w = (r, w'))
    (hno : r.toOption.isSome = false) (he : w'.HasData id m e) : e.status = .closed := by
  obtain ⟨status, ⟨ids, hl, -⟩, hout⟩ := (Statement.ends_prepare hw hid hd.1 hd.2 mode sql).elim hr
  obtain rfl := hl.unique he.1
  obtain rfl : { d.reset sql with status := status } = e := Extra.statement.inj (Option.some.inj he.2)
  obtain ⟨rfl, -⟩ | ⟨-, hclosed⟩ := hout
  · cases hno
  · exact hclosed

/-- A closed statement stays closed as long as no text is taken. -/
lemma Reachable.closed_after (ht : t.foreign = false) (h : Reachable t a) (hp : op.Permitted t) (hr : a.Ready op)
    (hno : ¬op.Renews id a.world) (hid : id < a.world.nodes.next)
    (hclosed : ∀ n d, a.world.HasData id n d → d.status = .closed) (he : (op.after a).world.HasData id m e) :
    e.status = .closed := by
  obtain ⟨n, d, hd, -⟩ := (h.grows id ht hp hr).data hid m e he
  have hf := h.fit.sound.forest
  by_cases hprepares : op.Prepares id
  · cases op with
    | statement s k =>
      cases k with
      | prepare mode sql =>
        rw [world_after (f := fun _ => 0) rfl] at he
        exact closed_prepare hf hprepares hd rfl (Bool.eq_false_iff.mpr fun hs => hno ⟨hprepares, hs⟩) he
      | execute sql =>
        have hfail := Bool.eq_false_iff.mpr fun hs => hno ⟨hprepares, hs⟩
        rw [world_after (f := fun _ => 0) rfl, Statement.execute, run_bind] at he
        rcases hrun : (s.prepare .prepare sql).run a.world with ⟨_ | _, v⟩ <;> rw [hrun] at he hfail
        · exact closed_prepare hf hprepares hd hrun hfail he
        · cases hfail
      | _ => exact hprepares.elim
    | _ => exact hprepares.elim
  · have halters := h.alters (V := Anyhow) ht hp hr receives_anyhow (op.sets_anyhow _) (op.bears_closed hprepares _)
    obtain ⟨n', d', hd', hkept⟩ := halters.data hid m e he
    exact hkept (hclosed n' d' hd')

/-- Work after which no resultset is wrapped below a statement finds those of the statement released, or releases
them. -/
lemma released_of_cleared {hs : Multiset Nat} {rs : Resultset} {j : Nat} (hpath : Path t (hs, w) (hs, w'))
    (hw : Sound hs w) (hc : ∀ q, w'.Live id q → w'.Cleared q) (hj : rs.handle.node = some j)
    (hm : w.nodes.get? j = some m) (hbelow : w.Live j m → m.parent = some id ∧ m.kind = .resultset) :
    rs.handle.isNull w' = true := by
  have hf := (Path.sound hpath hw).forest
  by_contra hnull
  obtain ⟨i, k, hi, hk⟩ := Wrapper.isNull_eq_false.mp (Bool.eq_false_iff.mpr hnull)
  obtain rfl := Option.some.inj (hj.symm.trans hi)
  -- the resultset would still be wrapped below the statement
  obtain ⟨hl, hstem⟩ := (Path.carries hpath hw).stem j m k hm hk
  obtain ⟨-, hkind, -, hparent⟩ := Node.of_stem hstem
  obtain ⟨hp, hr⟩ := hbelow hl
  obtain ⟨q, hq, hmem⟩ := hf.parent_live hk.1 (hparent.trans hp)
  exact hc q hq j hmem k hk (hkind.trans hr)

/-- A call of a statement gives a resultset. -/
def Gives (s : Statement) (rs : Resultset) (w : World) : StatementCall → Prop
  | .resultset => (s.resultset.run w).1 = .ok (some rs)
  | .nextResultset => (s.nextResultset.run w).1 = .ok (some rs)
  | _ => False

/-- A resultset lies below its statement from when it is given on. -/
lemma Reachable.below (ht : t.foreign = false) (h : Reachable t a) {k : StatementCall} {rs : Resultset}
    (hr : a.Ready (.statement s k)) (hg : Gives s rs a.world k) (hrun : Runs t (Operation.after (.statement s k) a) b) :
    ∃ id j m, s.handle.node = some id ∧ rs.handle.node = some j ∧ b.world.nodes.get? j = some m ∧
      (b.world.Live j m → m.parent = some id ∧ m.kind = .resultset) := by
  have he : a.world.Housed s.env := (h.fit.housed_of_holds (hr.1 _ List.mem_cons_self)).1
  have hnow : ∃ id j m, s.handle.node = some id ∧ rs.handle.node = some j ∧
      (Operation.after (.statement s k) a).world.Live j m ∧ m.parent = some id ∧ m.kind = .resultset := by
    cases k with
    | resultset =>
      rw [world_after (f := resultsetItems) rfl]
      exact Statement.below_of_takeResultset Statement.asks_resultset ht h.fit.sound (h.owns ht) he (Prod.ext hg rfl)
    | nextResultset =>
      rw [world_after (f := resultsetItems) rfl]
      exact Statement.below_of_takeResultset Statement.asks_nextResultset ht h.fit.sound (h.owns ht) he
        (Prod.ext hg rfl)
    | _ => exact hg.elim
  obtain ⟨id, j, m, hid, hj, hm, hparent, hkind⟩ := hnow
  have hnext : Reachable t (Operation.after (.statement s k) a) := h.next trivial hr
  have hcarries := hnext.carries hrun
  obtain ⟨k', hk'⟩ := hcarries.there j m hm.1
  refine ⟨id, j, k', hid, hj, hk', fun hl => ?_⟩
  obtain ⟨-, h2, -, h4⟩ := Node.of_stem (hcarries.stem j m k' hm.1 hl).2
  exact ⟨h4.trans hparent, h2.trans hkind⟩

/-- What is left of a statement after it has been given a text, and what it can do until one has been taken. -/
structure PrepareLaw (a : Application) : Prop where
  /-- Whether the native library takes the text or refuses it, nothing is bound to the statement, its array has one
  element, and it has the text; other settings stay. If the text is taken, the stage is that of the mode, and the
  native statement has the text and nothing else; if not, the statement is closed. -/
  reset : ∀ (s : Statement) d mode sql r w, .statement s ∈ a.items → s.data? a.world = some d →
    (s.prepare mode sql).run a.world = (r, w) → ∃ e, s.data? w = some e ∧ e.binds.objects = [] ∧ e.arraySize = 1 ∧
      e.initialArraySize = 1 ∧ e.sql = some sql ∧ e.allowRebinding = d.allowRebinding ∧ e.fetchMode = d.fetchMode ∧
      ((r = .ok () ∧ e.status = .ofMode mode ∧
          w.library.stmts.get? (s.handle.native w) = some ⟨some (sql, mode), ∅, [], [], none⟩) ∨
        (∃ err, r = .error err) ∧ e.status = .closed)
  /-- A resultset that a statement gives is released when the statement is prepared, however much later, and by
  whichever object of its node. -/
  released : ∀ (s s' : Statement) k rs b mode sql, a.Ready (.statement s k) → Gives s rs a.world k →
    Runs ⟨false, true⟩ (Operation.after (.statement s k) a) b → s'.handle.node = s.handle.node →
    rs.handle.isNull ((s'.prepare mode sql).run b.world).2 = true
  /-- As long as no text is taken after one has been refused, whatever needs a text fails for the stage of the
  statement, and nothing is called on its native handle. -/
  rejected : ∀ (s : Statement) id d ops, .statement s ∈ a.items → s.handle.node = some id → s.data? a.world = some d →
    d.status = .closed → Legal ⟨false, true⟩ ops a → Refuses id ops a → .statement s ∈ (play ops a).items →
    ∀ e, s.data? (play ops a).world = some e → e.status = .closed ∧
      ∀ (k : StatementCall) operation needed r w, k.gate? = some (operation, needed) → k.Meant (play ops a).world →
        (k.perform s).run (play ops a).world = (r, w) →
        r = .error (.invalidState operation (.statusBelow .closed needed)) ∧
          ∃ cs, w.calls = (play ops a).world.calls ++ cs ∧ ∀ c ∈ cs, c.2 ≠ s.handle.native (play ops a).world

/-- The law of preparation holds whenever an application is between two operations, and any primitive may fail at any
time. -/
theorem Reachable.prepareLaw (h : Reachable ⟨false, true⟩ a) : PrepareLaw a where
  reset s d mode sql r w hs hd hr := by
    obtain ⟨id, n, hid, hl, hx⟩ := Statement.data?_eq_some.mp hd
    obtain ⟨status, ⟨ids, hlive, -⟩, hout⟩ := (Statement.ends_prepare h.fit.sound.forest hid hl hx mode sql).elim hr
    refine ⟨{ d.reset sql with status := status }, Statement.data?_eq_some.mpr ⟨id, _, hid, hlive, rfl⟩, rfl, rfl, rfl,
      rfl, rfl, rfl, ?_⟩
    rw [Wrapper.native_of_live hid hlive]
    exact hout
  released s s' k rs b mode sql hr hg hrun hsame := by
    obtain ⟨id, j, m, hid, hj, hm, hbelow⟩ := h.below rfl hr hg hrun
    have hnext : Reachable ⟨false, true⟩ (Operation.after (.statement s k) a) := h.next trivial hr
    have hb : Reachable ⟨false, true⟩ b := Relation.ReflTransGen.trans hnext hrun
    have hpath : Path ⟨false, true⟩ (b.held, b.world) (b.held, ((s'.prepare mode sql).run b.world).2) :=
      s'.course_prepare mode sql hb.fit.sound
    exact released_of_cleared hpath hb.fit.sound
      (Statement.cleared_prepare hb.fit.sound.forest (hsame.trans hid) mode sql) hj hm hbelow
  rejected s id d ops hs hid hd hclosed hl hno hs' e he := by
    have hb : Reachable ⟨false, true⟩ (play ops a) := Relation.ReflTransGen.trans h (runs_play hl)
    obtain ⟨i, n, hi, hn, -⟩ := (h.seated rfl).data hs hd
    obtain rfl := Option.some.inj (hid.symm.trans hi)
    obtain ⟨i, m, hi, hm, -, ho⟩ := (hb.seated rfl).data hs' he
    obtain rfl := Option.some.inj (hid.symm.trans hi)
    have hstill : e.status = .closed := by
      refine h.data_play (R := fun d => d.status = .closed) rfl (h.fit.sound.forest.table.handed id n hn.1.1)
        (fun hb hp hr hno hid hbefore _ _ => hb.closed_after rfl hp hr hno hid hbefore) hl hno (fun n' d' hd' => ?_) hm
      obtain rfl := hn.1.unique hd'.1
      obtain rfl : d = d' := Extra.statement.inj (Option.some.inj (hn.2.symm.trans hd'.2))
      exact hclosed
    refine ⟨hstill, fun k operation needed r w hk hmeant hr => ?_⟩
    have hbelow : e.status.rank < needed.rank := by
      rw [hstill]
      exact StatementCall.gate?_rank hk
    obtain ⟨hfail, hw⟩ := (k.ends_below hb.fit.sound.forest hid hm.1 hm.2 hk hmeant hbelow).elim hr
    rw [hstill] at hfail
    refine ⟨hfail, ?_⟩
    rw [Wrapper.native_of_live hid hm.1]
    obtain rfl | ⟨count, hrelease⟩ := hw
    · exact ⟨[], (List.append_nil _).symm, fun c hc => absurd hc List.not_mem_nil⟩
    · exact s.calls_releaseResultsets hb.fit.sound.forest (hb.owns rfl) hid hm.1 ho hrelease

/-- A statement is executed and its resultset is wrapped, then a second text is refused: the native statement still has
the first one with its variable, the client has the second one without, and an execution fails. -/
theorem prepareLaw_after_refusal :
    let s : Statement := ⟨0, ⟨0, ⟨some 1⟩⟩, ⟨some 2⟩⟩
    let a := play [.createEnvironment default,
      .environment ⟨0, ⟨some 0⟩⟩ (.connect (.ofPassword "db" "user" "word")),
      .library (.addResultset "q" [[.null]]), .connection ⟨0, ⟨some 1⟩⟩ (.prepare "q"), .newVar (.single .bool true),
      .statement s (.bind (.name "x") 0 .input .regular 0), .statement s .executePrepared, .statement s .resultset,
      .library (.failNext .prepare (.single 942 "table or view does not exist")),
      .statement s (.prepare .parse "r")] start
    PrepareLaw a ∧ (s.data? a.world).map StatementData.status = some .closed ∧
      (s.data? a.world).map StatementData.sql = some (some "r") ∧
      (s.data? a.world).map (fun d => d.binds.names) = some [] ∧
      (Wrapper.mk (some 3)).isNull a.world = true ∧
      a.world.library.prepared? (s.handle.native a.world) = some ("q", .prepare) ∧
      a.world.library.bindCount (s.handle.native a.world) = 1 ∧
      (s.executePrepared.run a.world).1.toOption = none := by
  refine ⟨Reachable.prepareLaw (runs_play ?_), by decide +kernel, by decide +kernel, by decide +kernel,
    by decide +kernel, by decide +kernel, by decide +kernel, by decide +kernel⟩
  exact ⟨trivial, by decide +kernel, trivial, by decide +kernel, trivial, by decide +kernel, trivial,
    by decide +kernel, trivial, by decide +kernel, trivial, by decide +kernel, trivial, by decide +kernel, trivial,
    by decide +kernel, nofun, by decide +kernel, trivial, by decide +kernel, trivial⟩

end Application
end DbClient
