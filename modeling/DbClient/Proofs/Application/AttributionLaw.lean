import DbClient.Proofs.Application.FailingWalks
import DbClient.Proofs.Scope.Places
import DbClient.Proofs.Walk.Navigation

/-! The law of native errors, in any application and with anything made to fail: an error that an operation returns is
that of a call which it made itself, and the end of the rows and of the resultsets is no error. -/
namespace DbClient
open Act World RowAct

/-- The moves of the cursor of a resultset, each with what it asks of the native library. -/
def ResultsetCall.move? (rs : Resultset) : ResultsetCall → Option (Act Bool × FetchOp)
  | next => some (rs.next, .next)
  | prev => some (rs.prev, .prev)
  | first => some (rs.first, .first)
  | last => some (rs.last, .last)
  | seek .absolute offset => some (rs.seek .absolute offset, .absolute offset)
  | seek .relative offset => some (rs.seek .relative offset, .relative offset)
  | _ => none

/-- Whatever moves the cursor moves it in the native library, if the resultset may be scrolled so. -/
lemma ResultsetCall.eq_false_of_move {rs : Resultset} {k : ResultsetCall} {a : Act Bool} {move : FetchOp} {w : World}
    (h : k.move? rs = some (a, move)) : (a.run w).1 = .ok false ↔
      (move = .next ∨ rs.scrollable = true) ∧ ((rs.fetch move).run w).1 = .ok false := by
  have hscroll : ∀ operation, ((rs.scrolling operation >>= fun _ => rs.fetch move).run w).1 = .ok false ↔
      rs.scrollable = true ∧ ((rs.fetch move).run w).1 = .ok false := fun operation => by
    unfold Resultset.scrolling
    cases rs.scrollable with
    | false => exact iff_of_false nofun fun h => nomatch h.1
    | true => exact (and_iff_right rfl).symm
  cases k with
  | next =>
    obtain ⟨rfl, rfl⟩ := Prod.mk.inj (Option.some.inj h)
    exact (and_iff_right (.inl rfl)).symm
  | prev | first | last =>
    obtain ⟨rfl, rfl⟩ := Prod.mk.inj (Option.some.inj h)
    refine (hscroll _).trans (and_congr_left fun _ => ?_)
    simp
  | seek mode offset =>
    cases mode <;>
      (obtain ⟨rfl, rfl⟩ := Prod.mk.inj (Option.some.inj h)
       refine (hscroll _).trans (and_congr_left fun _ => ?_)
       simp)
  | _ => cases h

/-- An operation that is none of the client's has no errors. -/
lemma Operation.ok_of_aside {op : Operation} {w : World} (h : op.Aside) :
    ∃ items, (op.perform.run w).1 = .ok items := by
  cases op with
  | newVar | setVar | library => exact ⟨0, rfl⟩
  | _ => exact h.elim

namespace Application
variable {a b c : Application} {op : Operation}

/-- In the course of a walk an operation comes upon a native error, or the callback fails with it. -/
inductive Culprit {σ : Type} (items : σ → Multiset Item) (callback : Resultset → RowAct σ Bool) (x : ClientError)
    (e : NativeError) (a b : Application) : Prop
  | call (h : a.world.library.Attributed b.world.library e)
  | callback (rs : Resultset) (s s' : σ) (ha : a.items = {.resultset rs} + items s)
      (hb : b.items = {.resultset rs} + items s') (h : (callback rs).run (s, a.world) = (.error x, (s', b.world)))

/-- On a run something is such a culprit. -/
def Meets {σ : Type} (items : σ → Multiset Item) (callback : Resultset → RowAct σ Bool) (x : ClientError)
    (e : NativeError) (a b : Application) : Prop :=
  ∃ c d, Runs ⟨false, true⟩ a c ∧ Culprit items callback x e c d ∧ Runs ⟨false, true⟩ d b

/-- Native errors are those of the calls that returned them. -/
structure AttributionLaw (a : Application) : Prop where
  /-- The native error that an operation returns is that of a call which it made: either one that was made to fail with
  this error, or one that the library refused. -/
  attributed : ∀ op x e, op.Permitted ⟨false, true⟩ → a.Ready op → (op.perform.run a.world).1 = .error x →
    x.source? = some e → a.world.library.Attributed (op.after a).world.library e
  /-- An error without a known cause is returned only if just this had been asked for. -/
  known : ∀ op x code, op.Permitted ⟨false, true⟩ → a.Ready op → (op.perform.run a.world).1 = .error x →
    x.source? = some (.unknown code) → ∃ p, a.world.library.failures.get? p = some (.unknown code)
  /-- There are no more rows just when the call to move the cursor found none and was not made to fail. -/
  rows : ∀ rs k m move, ResultsetCall.move? rs k = some (m, move) →
    ((m.run a.world).1 = .ok false ↔ (move = .next ∨ rs.scrollable = true) ∧ ∃ id n, rs.handle.node = some id ∧
      a.world.Live id n ∧ Library.FindsNothing (Library.fetch n.native move a.world.library))
  /-- There are no more resultsets just when the call for one found none and was not made to fail. -/
  resultsets : ∀ s : Statement,
    ((s.resultset.run a.world).1 = .ok none ↔ ∃ id n, s.handle.node = some id ∧ a.world.Live id n ∧
      (∃ d, n.Keeps d ∧ d.status = .executed) ∧ Library.FindsNothing (Library.resultset n.native a.world.library)) ∧
    ((s.nextResultset.run a.world).1 = .ok none ↔ ∃ id n, s.handle.node = some id ∧ a.world.Live id n ∧
      (∃ d, n.Keeps d ∧ d.status = .executed) ∧ Library.FindsNothing (Library.nextResultset n.native a.world.library))
  /-- A call finds nothing just when it is not made to fail and there is nothing. -/
  nothing : (∀ rs move, Library.FindsNothing (Library.fetch rs move a.world.library) ↔
      a.world.library.failures.get? .fetch = none ∧
        ∃ c, a.world.library.rsets.get? rs = some c ∧ (c.fetch move).1 = false) ∧
    (∀ stmt, Library.FindsNothing (Library.resultset stmt a.world.library) ↔
      a.world.library.failures.get? .resultset = none ∧
        ∃ st, a.world.library.stmts.get? stmt = some st ∧ st.resultsets = []) ∧
    (∀ stmt, Library.FindsNothing (Library.nextResultset stmt a.world.library) ↔
      a.world.library.failures.get? .resultset = none ∧
        ∃ st, a.world.library.stmts.get? stmt = some st ∧
          st.resultsets.length ≤ (st.cursor.map (· + 1)).getD 0)
  /-- The native error of a walk is that of a call which one of its operations made, or the callback ends with it. -/
  walks : ∀ {σ : Type} (items : σ → Multiset Item) (callback : Resultset → RowAct σ Bool) (s s' : σ) (w' : World)
    (x : ClientError) (e : NativeError), Lending ⟨false, true⟩ items callback → x.source? = some e →
    (∀ stmt, a.items = items s → (∀ s, .statement stmt ∈ items s) →
      (stmt.fetch callback).run (s, a.world) = (.error x, (s', w')) →
        Meets items callback x e a ⟨w', items s'⟩) ∧
    (∀ rs, a.items = {.resultset rs} + items s → (rs.forEach callback).run (s, a.world) = (.error x, (s', w')) →
      Meets items callback x e a ⟨w', {.resultset rs} + items s'⟩)
  /-- It does not matter how many resultsets, and how many steps in each of them, a walk may take. -/
  bounded : ∀ {σ : Type} (items : σ → Multiset Item) (callback : Resultset → RowAct σ Bool) (s s' : σ) (w' : World)
    (x : ClientError) (e : NativeError) (rows resultsets : Nat),
    Lending ⟨false, true⟩ items callback → x.source? = some e →
    (∀ stmt, a.items = items s → (∀ s, .statement stmt ∈ items s) →
      (stmt.fetchWithin rows resultsets callback).run (s, a.world) = (.error x, (s', w')) →
        Meets items callback x e a ⟨w', items s'⟩) ∧
    (∀ rs, a.items = {.resultset rs} + items s →
      (rs.forEachWithin rows callback).run (s, a.world) = (.error x, (s', w')) →
        Meets items callback x e a ⟨w', {.resultset rs} + items s'⟩)

/-- The native error of an operation is attributed to it. -/
lemma Reachable.attributed (h : Reachable ⟨false, true⟩ a) (hp : op.Permitted ⟨false, true⟩) (hr : a.Ready op)
    {x : ClientError} {e : NativeError} (hx : (op.perform.run a.world).1 = .error x) (he : x.source? = some e) :
    a.world.library.Attributed (op.after a).world.library e := by
  by_cases ha : op.Aside
  · obtain ⟨items, hok⟩ := op.ok_of_aside ha
    exact absurd (hok.symm.trans hx) nofun
  · have htells := h.tells hp hr ⟨Scope.wide_all, fun _ _ => trivial, fun _ _ => trivial, fun _ => trivial⟩ ha
    exact (htells.blames x e hx he).attributed

/-- What fails on a run with a native error is a culprit. -/
lemma Reachable.culprit {σ : Type} {items : σ → Multiset Item} {callback : Resultset → RowAct σ Bool} {x : ClientError}
    {e : NativeError} (h : Reachable ⟨false, true⟩ b) (he : x.source? = some e)
    (hfail : Fails ⟨false, true⟩ items callback x b c) : Culprit items callback x e b c := by
  cases hfail with
  | operation hp hr hx => exact .call (h.attributed hp hr hx he)
  | callback hx => exact .callback _ _ _ rfl rfl hx

/-- A part of a walk that fails for a reason meets a culprit on its way. -/
lemma Reachable.meets {σ α : Type} {items : σ → Multiset Item} {callback : Resultset → RowAct σ Bool} {s s' : σ}
    {w' : World} {x : ClientError} {e : NativeError} {before : Multiset Item}
    {after : Except ClientError α → Multiset Item} {act : RowAct σ α} (h : Reachable ⟨false, true⟩ a)
    (hact : Reasoned ⟨false, true⟩ items callback before after act) (hi : a.items = before + items s)
    (he : x.source? = some e) (hrun : act.run (s, a.world) = (.error x, (s', w'))) :
    Meets items callback x e a ⟨w', after (.error x) + items s'⟩ := by
  obtain ⟨b, c, hb, hfail, hc⟩ := hact s a.world x s' w' hrun
  rw [← hi] at hb
  exact ⟨b, c, hb, Reachable.culprit (Relation.ReflTransGen.trans h hb) he hfail, hc⟩

/-- The law of native errors holds whenever an application is between two operations, whatever is made to fail. -/
theorem Reachable.attributionLaw (h : Reachable ⟨false, true⟩ a) : AttributionLaw a where
  attributed op x e hp hr hx he := h.attributed hp hr hx he
  known op x code hp hr hx he := (h.attributed hp hr hx he).known
  rows rs k m move hm := (ResultsetCall.eq_false_of_move hm).trans (and_congr_right fun _ => rs.fetch_eq_false move)
  resultsets s := ⟨s.takeResultset_eq_none _ _, s.takeResultset_eq_none _ _⟩
  nothing := ⟨fun _ _ => Library.findsNothing_fetch, fun _ => Library.findsNothing_resultset,
    fun _ => Library.findsNothing_nextResultset⟩
  walks items callback s s' w' x e hc he := by
    refine ⟨fun stmt hi hs hrun => ?_, fun rs hi hrun => ?_⟩
    · have hmeets := h.meets (Statement.reasoned_fetch hs hc) (hi.trans (Multiset.zero_add _).symm) he hrun
      rwa [Multiset.zero_add] at hmeets
    · exact h.meets (Resultset.reasoned_forEach hc rs) hi he hrun
  bounded items callback s s' w' x e rows resultsets hc he := by
    refine ⟨fun stmt hi hs hrun => ?_, fun rs hi hrun => ?_⟩
    · have hmeets := h.meets (Statement.reasoned_fetchWithin hs hc rows resultsets)
        (hi.trans (Multiset.zero_add _).symm) he hrun
      rwa [Multiset.zero_add] at hmeets
    · exact h.meets (Resultset.reasoned_forEachWithin hc rows rs) hi he hrun

/-- A cursor is made to fail without a known cause, once; then it moves, and then there are no more rows. -/
theorem attributionLaw_after_failure :
    let stmt : Statement := ⟨0, ⟨0, ⟨some 1⟩⟩, ⟨some 2⟩⟩
    let rs : Resultset := ⟨⟨some 3⟩, some "q", false⟩
    let a := play [.createEnvironment default, .environment ⟨0, ⟨some 0⟩⟩ (.connect (.ofPassword "db" "user" "word")),
      .connection ⟨0, ⟨some 1⟩⟩ .statement, .library (.addResultset "q" [[.null]]), .statement stmt (.execute "q"),
      .statement stmt .resultset, .library (.failNext .fetch (.unknown (-1)))] start
    AttributionLaw a ∧
      (match (rs.next.run a.world).1 with
        | .error x => x.source?
        | .ok _ => none) = some (.unknown (-1)) ∧
      (rs.next.run (rs.next.run a.world).2).1.toOption = some true ∧
      (rs.next.run (rs.next.run (rs.next.run a.world).2).2).1.toOption = some false := by
  intro stmt rs a
  exact ⟨Reachable.attributionLaw (runs_play ⟨trivial, by decide +kernel, trivial, by decide +kernel, trivial,
    by decide +kernel, trivial, by decide +kernel, trivial, by decide +kernel, trivial, by decide +kernel, nofun,
    by decide +kernel, trivial⟩), by decide +kernel, by decide +kernel, by decide +kernel⟩

end Application
end DbClient
