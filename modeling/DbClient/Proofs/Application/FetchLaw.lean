import DbClient.Proofs.Application.BindingLaw
import DbClient.Proofs.Application.ChainWalks
import DbClient.Proofs.Application.ForestLaw
import DbClient.Proofs.Walk.Scripts

/-! The law of walks over all resultsets of a statement, in any application and with any callback that spares the walk:
the rows on which the callback is called, what the walk returns, and what it leaves behind. -/
namespace DbClient
open World RowAct Application

variable {σ : Type} {t : Terms} {a b : Application} {items : σ → Multiset Item} {stmt : Statement}
  {callback : Resultset → RowAct σ Bool} {s s' : σ} {w w' : World} {id : Nat} {n m : Node}

namespace Application

/-- When an application holds the same objects as before, no node has come to life, and each has as many wrappers as it
had. -/
theorem Reachable.settled (h : Reachable t a) (hr : Runs t a b) (hi : b.items = a.items) (hm : b.world.Live id m) :
    ∃ n, a.world.Live id n ∧ m.stem = n.stem ∧ m.holders = n.holders := by
  have hreach : Reachable t b := Relation.ReflTransGen.trans h hr
  have hfit := h.fit
  have hsame : b.wrappersOf id = a.wrappersOf id := by rw [wrappersOf, wrappersOf, hi]
  obtain ⟨hcount, hsome⟩ := hreach.forestLaw.holders id m hm
  have hheld : id ∈ a.held := by
    rw [← Multiset.one_le_count_iff_mem, count_held, ← hsame, ← hcount]
    exact hsome
  obtain ⟨n, hn⟩ := hfit.sound.counted.exist id hheld
  obtain ⟨hl, hstem⟩ := (Path.carries (Runs.path hr hfit) hfit.sound).stem id n m hn hm
  exact ⟨n, hl, hstem, hcount.trans (hsame.trans (h.forestLaw.holders id n hl).1.symm)⟩

end Application

namespace Statement

/-- A statement can be walked over with a callback: it has been executed and stays at hand, neither to take a resultset
nor to fetch is made to fail, and the callback spares the walk with all that the application holds. -/
structure Walkable (a : Application) (items : σ → Multiset Item) (callback : Resultset → RowAct σ Bool) (s : σ)
    (stmt : Statement) : Prop where
  holds : a.items = items s
  stays : ∀ s, .statement stmt ∈ items s
  lends : Lending ⟨false, true⟩ items callback
  spares : stmt.SparedBy ⟨false, true⟩ items callback
  executed : (stmt.data? a.world).map StatementData.status = some .executed
  calm : a.world.library.failures.get? .resultset = none ∧ a.world.library.failures.get? .fetch = none

/-- The chain of a statement that can be walked over is on offer. -/
lemma Walkable.offers (hw : stmt.Walkable a items callback s) (h : Reachable ⟨false, true⟩ a) :
    ∃ taken, stmt.Offers (stmt.chain a.world) taken a.world := by
  obtain ⟨d, hd, hstatus⟩ := Option.map_eq_some_iff.mp hw.executed
  obtain ⟨id, n, hid, hl, hx⟩ := data?_eq_some.mp hd
  obtain ⟨st, hst, -⟩ := (h.bindings rfl).agree id n d ⟨hl, hx⟩ (by rw [hstatus]; decide)
  have hlisted := map_chain (h.chains rfl) stmt
  rw [Wrapper.native_of_live hid hl, Library.listed_of_get? hst] at hlisted
  refine ⟨st.cursor, .of_node st hid hl hx hstatus hst hlisted.symm rfl (fun p hp => ?_) hw.calm⟩
  obtain ⟨r, -, hr⟩ := List.mem_filterMap.mp hp
  obtain ⟨c, hc, rfl⟩ := Option.map_eq_some_iff.mp hr
  exact hc

end Statement

namespace Application

/-- Walks over all resultsets go as they should. -/
structure FetchLaw (a : Application) (items : σ → Multiset Item) (callback : Resultset → RowAct σ Bool) (s : σ)
    (stmt : Statement) : Prop where
  /-- The chain of the statement is what the native library lists for it. -/
  listed : (stmt.chain a.world).map Prod.fst = a.world.library.listed (stmt.handle.native a.world)
  /-- The callback is called on the rows of the chain, one resultset after the other, and the walk returns how many it
  has accepted. A record of the calls changes nothing. -/
  visits : ∃ vs r s' w', Chained (stmt.chain a.world) vs r ∧
    (stmt.fetch (Resultset.recorded callback)).run ((s, []), a.world) =
      (r.map fun _ => Visit.accepted vs, ((s', vs), w')) ∧
    (stmt.fetch callback).run (s, a.world) = (r.map fun _ => Visit.accepted vs, (s', w')) ∧
    ∀ left, r = .ok left → stmt.chain w' = left
  /-- The walk fails only with an error of the callback, which is not called again. -/
  failure : ∀ e s' vs w',
    (stmt.fetch (Resultset.recorded callback)).run ((s, []), a.world) = (.error e, ((s', vs), w')) →
      ∃ us v, vs = us ++ [v] ∧ v.answer = .error e ∧ ∀ u ∈ us, ∃ b, u.answer = .ok b
  /-- It comes to an end by itself: all bounds that are great enough for the chain lead to the same. -/
  ends : ∀ rows resultsets, (∀ p ∈ stmt.chain a.world, p.2.rows.length - p.2.pos < rows) →
    (stmt.chain a.world).length ≤ resultsets →
      (stmt.fetchWithin rows resultsets callback).run (s, a.world) = (stmt.fetch callback).run (s, a.world)
  /-- With an adapter the walk is the same, if the callback takes what the adapter makes of each row, and fails with
  it. -/
  adapted : ∀ {α : Type} (inner : α → RowAct σ Bool) (adapter : Resultset → RowAct σ α),
    (∀ rs p, (callback rs).run p = match (adapter rs).run p with
      | (.ok x, q) => (inner x).run q
      | (.error e, q) => (.error e, q)) → stmt.fetchAdapted inner adapter = stmt.fetch callback
  /-- Whatever comes of the walk, the children of the statement have no wrappers but those that the application
  holds, -/
  held : ∀ r s' w', (stmt.fetch callback).run (s, a.world) = (r, (s', w')) → ∀ id n, stmt.handle.node = some id →
    w'.Live id n → ∀ c ∈ n.children, ∃ m, w'.Live c m ∧ m.holders = wrappersOf ⟨w', items s'⟩ c ∧ 1 ≤ m.holders
  /-- and if it holds the same as before, they have been children before, with as many wrappers. -/
  left : ∀ r s' w', (stmt.fetch callback).run (s, a.world) = (r, (s', w')) → items s' = items s →
    ∀ id n, stmt.handle.node = some id → w'.Live id n → ∀ c ∈ n.children, ∃ p k m, a.world.Live id p ∧ c ∈ p.children ∧
      a.world.Live c k ∧ w'.Live c m ∧ m.holders = k.holders

/-- A callback of an adapter and another callback. -/
lemma fetchAdapted_eq {α : Type} {inner : α → RowAct σ Bool} {adapter : Resultset → RowAct σ α}
    (h : ∀ rs p, (callback rs).run p = match (adapter rs).run p with
      | (.ok x, q) => (inner x).run q
      | (.error e, q) => (.error e, q)) (stmt : Statement) : stmt.fetchAdapted inner adapter = stmt.fetch callback := by
  have hboth : Resultset.adapted adapter inner = callback := by
    funext rs p
    exact (RowAct.run_bind (adapter rs) inner p).trans (h rs p).symm
  rw [← hboth]
  rfl

/-- The law of walks holds whenever an application is between two operations. -/
theorem Reachable.fetchLaw (h : Reachable ⟨false, true⟩ a) (hw : stmt.Walkable a items callback s) :
    FetchLaw a items callback s stmt := by
  obtain ⟨taken, ho⟩ := hw.offers h
  have hreach : Reachable ⟨false, true⟩ ⟨a.world, items s⟩ := hw.holds ▸ h
  obtain ⟨vs, r, s', w', hchained, hoffers, hrecorded, hwithin⟩ :=
    Statement.fetched rfl hw.stays hw.lends hw.spares hreach ho []
  have hplain := (stmt.mirrors_fetch callback).eq s [] a.world
  rw [hrecorded] at hplain
  have hruns := Statement.runs_fetch hw.stays hw.lends s a.world
  refine {
    listed := Statement.map_chain (h.chains rfl) stmt
    visits := ⟨vs, r, s', w', hchained, hrecorded, hplain, fun left hr => (hoffers left hr).chain_eq⟩
    failure := fun e _ _ _ he => ?_
    ends := fun rows resultsets hrows hresultsets => ?_
    adapted := fun inner adapter hboth => fetchAdapted_eq hboth stmt
    held := fun r' s'' w'' hr id n hid hn c hc => ?_
    left := fun r' s'' w'' hr hi id n hid hn c hc => ?_ }
  · rw [hrecorded] at he
    obtain ⟨hfail, hends⟩ := Prod.mk.inj he
    obtain rfl : vs = _ := congrArg (fun p => p.1.2) hends
    cases r with
    | ok _ => cases hfail
    | error e' =>
      obtain rfl := Except.error.inj hfail
      exact hchained.failure rfl
  · rw [(stmt.mirrors_fetchWithin rows resultsets callback).eq s [] a.world, hwithin rows resultsets hrows hresultsets,
      hplain]
  · rw [hr] at hruns
    have hlaw := Reachable.forestLaw (Relation.ReflTransGen.trans hreach hruns)
    obtain ⟨m, hm, -⟩ := hlaw.unlisted id n c hn.1 hc
    exact ⟨m, hm, hlaw.holders c m hm⟩
  · rw [hr] at hruns
    have hlaw := Reachable.forestLaw (Relation.ReflTransGen.trans hreach hruns)
    obtain ⟨m, hm, hparent⟩ := hlaw.unlisted id n c hn.1 hc
    obtain ⟨k, hk, hstem, hholders⟩ := hreach.settled hruns hi hm
    obtain ⟨p, hp, hcount⟩ := hreach.forestLaw.listed c k id hk ((Node.of_stem hstem).2.2.2 ▸ hparent)
    exact ⟨p, k, m, hp, List.count_pos_iff.mp (Nat.lt_of_lt_of_eq Nat.zero_lt_one hcount.symm), hk, hm, hholders⟩

/-- A script that reads a column of each row declines the third row of a first resultset, whose cursor has been moved
before, and accepts the rows of a third one; with an adapter it does the same. -/
theorem fetchLaw_after_decline :
    let stmt : Statement := ⟨0, ⟨0, ⟨some 1⟩⟩, ⟨some 2⟩⟩
    let script : RowScript := ⟨.result, [(1, ⟨false, none⟩)], [.accept, .decline], true, none⟩
    let a := play [.createEnvironment default, .environment ⟨0, ⟨some 0⟩⟩ (.connect (.ofPassword "db" "user" "word")),
      .connection ⟨0, ⟨some 1⟩⟩ .statement, .library (.addResultset "q" [[.null], [.null], [.null]]),
      .library (.addResultset "q" []), .library (.addResultset "q" [[.null], [.null]]), .statement stmt (.execute "q"),
      .statement stmt .resultset, .resultset ⟨⟨some 3⟩, some "q", false⟩ .next] start
    FetchLaw a (fun _ => a.items) script.callback .empty stmt ∧
      FetchLaw a (fun _ => a.items) (Resultset.adapted script.adapter script.answerRow) .empty stmt ∧
      ((stmt.fetch script.callback).run (.empty, a.world)).1.toOption = some 3 ∧
      ((stmt.fetchAdapted script.answerRow script.adapter).run (.empty, a.world)).1.toOption = some 3 ∧
      (stmt.chain a.world).map (fun p => (p.2.rows.length, p.2.pos)) = [(3, 1), (0, 0), (2, 0)] ∧
      a.wrappersOf 3 = 1 := by
  intro stmt script a
  have hreach : Reachable ⟨false, true⟩ a := runs_play ⟨trivial, by decide +kernel, trivial, by decide +kernel, trivial,
    by decide +kernel, trivial, by decide +kernel, trivial, by decide +kernel, trivial, by decide +kernel, trivial,
    by decide +kernel, trivial, by decide +kernel, trivial, by decide +kernel, trivial⟩
  have hwalk : ∀ {callback}, Browsing ⟨false, true⟩ a.items callback →
      stmt.Walkable a (fun _ => a.items) callback Tally.empty := fun h =>
    ⟨rfl, fun _ => by decide +kernel, h.lending, h.sparedBy stmt, by decide +kernel, by decide +kernel⟩
  exact ⟨Reachable.fetchLaw hreach (hwalk (RowScript.browsing_callback (by nofun) rfl)),
    Reachable.fetchLaw hreach (hwalk (RowScript.browsing_adapted (by nofun) rfl)), by decide +kernel,
    by decide +kernel, by decide +kernel, by decide +kernel⟩

end Application
end DbClient
