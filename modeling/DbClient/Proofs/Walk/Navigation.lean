import DbClient.Proofs.Bindings.World
import DbClient.Proofs.Scope.Invocation
import DbClient.Proofs.Outcomes

/-! Navigation: the end of the rows and the end of the chain of resultsets. An operation tells of either just when the
native library has looked and found nothing. A call that is made to fail, or made with a handle that it does not know,
leaves an error instead. -/
namespace DbClient
open Act World

namespace Library
variable {α : Type} {l : Library} {op : Primitive} {h stmt rs : Address}

/-- What a call gave is no data, and no error with it. -/
def FindsNothing (p : Option α × Library) : Prop := p.1 = none ∧ p.2.error = none

lemma findsNothing_fail {e : NativeError} : ¬FindsNothing (fail (α := α) e l) := fun h => nomatch h.2

/-- A call finds nothing unless it is made to fail. -/
lemma findsNothing_run {P : Prop} {body : Library → Option α × Library}
    (hb : ∀ m : Library, m.error = none → m.stmts = l.stmts → m.rsets = l.rsets → (FindsNothing (body m) ↔ P)) :
    FindsNothing (run op h body l) ↔ l.failures.get? op = none ∧ P := by
  cases hf : l.failures.get? op with
  | none =>
    rw [run_free hf, and_iff_right rfl]
    exact hb _ rfl rfl rfl
  | some e =>
    rw [run_injected hf]
    exact iff_of_false (fun h => nomatch h.2) fun h => nomatch h.1

/-- A cursor has come to an end when it has no row where it is to move. -/
lemma findsNothing_fetch {move : FetchOp} : FindsNothing (fetch rs move l) ↔
    l.failures.get? .fetch = none ∧ ∃ c, l.rsets.get? rs = some c ∧ (c.fetch move).1 = false := by
  refine findsNothing_run fun m he _ hr => ?_
  rw [hr]
  cases l.rsets.get? rs with
  | none => exact iff_of_false findsNothing_fail fun ⟨_, hc, _⟩ => nomatch hc
  | some c => simp [FindsNothing, he]

/-- There is no first resultset of a statement that lists none. -/
lemma findsNothing_resultset : FindsNothing (resultset stmt l) ↔
    l.failures.get? .resultset = none ∧ ∃ st, l.stmts.get? stmt = some st ∧ st.resultsets = [] := by
  refine findsNothing_run fun m he hs _ => ?_
  rw [hs]
  cases l.stmts.get? stmt with
  | none => exact iff_of_false findsNothing_fail fun ⟨_, hc, _⟩ => nomatch hc
  | some st =>
    dsimp only
    cases hr : st.resultsets <;> simp [FindsNothing, he, hr]

/-- There is no next resultset of a statement that lists none behind the one taken last. -/
lemma findsNothing_nextResultset : FindsNothing (nextResultset stmt l) ↔
    l.failures.get? .resultset = none ∧ ∃ st, l.stmts.get? stmt = some st ∧
      st.resultsets.length ≤ (st.cursor.map (· + 1)).getD 0 := by
  refine findsNothing_run fun m he hs _ => ?_
  rw [hs]
  cases l.stmts.get? stmt with
  | none => exact iff_of_false findsNothing_fail fun ⟨_, hc, _⟩ => nomatch hc
  | some st => simp [FindsNothing, he]

end Library

variable {α : Type} {w : World}

/-- A primitive that may find nothing is told apart from one that fails. -/
lemma Act.run_optional (dress : ClientError → ClientError) (f : Library → Option α × Library) (w : World) :
    ((Act.optional dress f).run w).1 = .ok none ↔ Library.FindsNothing (f w.library) := by
  unfold Act.optional
  rw [run_bind, run_native]
  rcases f w.library with ⟨_ | x, l⟩
  · dsimp only
    rw [run_bind, run_native]
    unfold Library.takeError
    dsimp only
    cases he : l.error with
    | none => exact iff_of_true rfl ⟨rfl, he⟩
    | some e => exact iff_of_false nofun fun h => nomatch he.symm.trans h.2
  · exact iff_of_false nofun fun h => nomatch h.1

/-- A wrapper has one live node at most. -/
lemma Wrapper.exists_live {h : Wrapper} {id : Nat} {n : Node} {P : Node → Prop} (hid : h.node = some id)
    (hl : w.Live id n) : (∃ id n, h.node = some id ∧ w.Live id n ∧ P n) ↔ P n := by
  refine ⟨fun ⟨i, m, hi, hm, hp⟩ => ?_, fun hp => ⟨id, n, hid, hl, hp⟩⟩
  obtain rfl := Option.some.inj (hid.symm.trans hi)
  exact hl.unique hm ▸ hp

lemma Wrapper.not_exists_live {h : Wrapper} {P : Node → Prop} (hnull : h.isNull w = true) :
    ¬∃ id n, h.node = some id ∧ w.Live id n ∧ P n := fun ⟨id, n, hid, hl, _⟩ =>
  Bool.false_ne_true ((Wrapper.isNull_eq_false.mpr ⟨id, n, hid, hl⟩).symm.trans hnull)

/-- There are no more rows just when the cursor has found none. -/
theorem Resultset.fetch_eq_false (rs : Resultset) (move : FetchOp) :
    ((rs.fetch move).run w).1 = .ok false ↔
      ∃ id n, rs.handle.node = some id ∧ w.Live id n ∧
        Library.FindsNothing (Library.fetch n.native move w.library) := by
  suffices Ends (rs.fetch move) w fun r _ => r = .ok false ↔ _ from this
  refine Ends.live (fun id n hid hl => ?_) fun hnull => iff_of_false nofun (Wrapper.not_exists_live hnull)
  refine Ends.after (run_native _ w) ?_
  rw [Wrapper.exists_live hid hl]
  rcases Library.fetch n.native move w.library with ⟨_ | x, l⟩
  · refine Ends.after (run_native _ _) ?_
    unfold Library.takeError
    dsimp only
    cases he : l.error with
    | none => exact iff_of_true rfl ⟨rfl, he⟩
    | some e =>
      refine iff_of_false (fun h => ?_) fun h => nomatch he.symm.trans h.2
      cases h
  · exact iff_of_false nofun fun h => nomatch h.1

/-- There are no more resultsets just when an executed statement has been asked and has none to give. -/
theorem Statement.takeResultset_eq_none (s : Statement) (operation : String)
    (ask : Address → Library → Option Address × Library) :
    ((s.takeResultset operation ask).run w).1 = .ok none ↔ ∃ id n, s.handle.node = some id ∧ w.Live id n ∧
      (∃ d, n.Keeps d ∧ d.status = .executed) ∧ Library.FindsNothing (ask n.native w.library) := by
  suffices Ends (s.takeResultset operation ask) w fun r _ => r = .ok none ↔ _ from this
  refine Ends.live (fun id n hid hl => ?_) fun hnull => iff_of_false nofun (Wrapper.not_exists_live hnull)
  rw [Wrapper.exists_live hid hl]
  refine Ends.data (fun d hd => ?_) fun hnone => iff_of_false nofun fun ⟨⟨d, hx, _⟩, _⟩ => ?_
  · obtain ⟨i, m, hi, hm, hx⟩ := data?_eq_some.mp hd
    obtain rfl := Option.some.inj (hid.symm.trans hi)
    obtain rfl := hl.unique hm
    refine Ends.requireStatus (fun hs => ?_) fun hb => iff_of_false nofun fun ⟨⟨d', hx', hs⟩, _⟩ => ?_
    · have hexecuted : d.status = .executed := by
        cases hd : d.status <;> simp [hd, Status.rank] at hs ⊢
      rw [and_iff_right ⟨d, hx, hexecuted⟩]
      have hrun := run_optional (fun e => (e.withSql d.sql).withHandle n.native) (ask n.native) w
      refine Ends.bind (fun found v hv => ?_) fun e v hv => ?_
      · rw [hv] at hrun
        cases found with
        | none => exact iff_of_true rfl (hrun.mp rfl)
        | some r =>
          refine Ends.bind (fun h u _ => ?_) fun e u _ => ?_
          · exact iff_of_false nofun fun h => nomatch hrun.mpr h
          · exact iff_of_false nofun fun h => nomatch hrun.mpr h
      · rw [hv] at hrun
        exact iff_of_false nofun fun h => nomatch hrun.mpr h
    · obtain rfl := Extra.statement.inj (Option.some.inj (hx.symm.trans hx'))
      exact absurd hb (by rw [hs]; exact Nat.lt_irrefl _)
  · rw [data?_eq_some.mpr ⟨id, n, hid, hl, hx⟩] at hnone
    cases hnone

end DbClient
