import DbClient.Proofs.Application.Basic

/-! Walks over rows are runs: a callback that is itself a run of operations, with whatever it holds beside the
resultset that it is lent, makes a walk a run. Nothing can be reached through a callback that could not be
reached without one. -/
namespace DbClient
open Application

variable {σ α β : Type} {t : Terms} {items : σ → Multiset Item} {before : Multiset Item}

/-- To drop a resultset is an operation. -/
lemma Resultset.step_drop (rs : Resultset) (w : World) (rest : Multiset Item) :
    Application.Step t ⟨w, {.resultset rs} + rest⟩ ⟨rs.drop w, rest⟩ := by
  refine ⟨.item (.resultset rs) .drop, trivial, ⟨fun i hi => ?_, ?_⟩, ?_⟩
  · rw [List.mem_singleton.mp hi]
    exact ⟨.resultset rs, by simp, List.mem_singleton_self _⟩
  · exact Multiset.le_add_right _ _
  · unfold Operation.after
    change _ = Application.mk (rs.drop w) (0 + ({Item.resultset rs} + rest - {Item.resultset rs}))
    rw [Multiset.zero_add, add_tsub_cancel_left]

namespace RowAct

theorem run_bind (a : RowAct σ α) (f : α → RowAct σ β) (p : σ × World) : (a >>= f).run p =
    match a.run p with
    | (.ok x, q) => (f x).run q
    | (.error e, q) => (.error e, q) := by
  change ((ExceptT.bind a f).run : StateM (σ × World) (Except ClientError β)) p = _
  simp only [ExceptT.bind, ExceptT.run, ExceptT.mk, bind, StateT.bind, ExceptT.bindCont]
  rcases a p with ⟨_ | _, _⟩ <;> rfl

theorem run_tryCatch (a : RowAct σ α) (f : ClientError → RowAct σ α) (p : σ × World) : (tryCatch a f).run p =
    match a.run p with
    | (.ok x, q) => (.ok x, q)
    | (.error e, q) => (f e).run q := by
  change ((ExceptT.tryCatch a f).run : StateM (σ × World) (Except ClientError α)) p = _
  simp only [ExceptT.tryCatch, ExceptT.run, ExceptT.mk, bind, StateT.bind]
  rcases a p with ⟨_ | _, _⟩ <;> rfl

@[simp] theorem run_ofAct (a : Act α) (p : σ × World) :
    (ofAct a).run p = ((a.run p.2).1, (p.1, (a.run p.2).2)) := rfl

@[simp] theorem run_sweeping (sweep : World → World) (a : RowAct σ α) (p : σ × World) :
    (sweeping sweep a).run p = ((a.run p).1, ((a.run p).2.1, sweep (a.run p).2.2)) := rfl

/-- A part of a walk is a run. It begins with some objects beside those of the callback, and its outcome
determines those with which it ends. -/
def Leads (t : Terms) (items : σ → Multiset Item) (before : Multiset Item)
    (after : Except ClientError α → Multiset Item) (a : RowAct σ α) : Prop :=
  ∀ s w, Runs t ⟨w, before + items s⟩ ⟨(a.run (s, w)).2.2, after (a.run (s, w)).1 + items (a.run (s, w)).2.1⟩

namespace Leads
variable {after : Except ClientError β → Multiset Item}

lemma pure {after : Except ClientError α → Multiset Item} (x : α) (h : before = after (.ok x)) :
    Leads t items before after (Pure.pure x) := fun _ _ => h ▸ Relation.ReflTransGen.refl

theorem bind {mid : Except ClientError α → Multiset Item} {a : RowAct σ α} {f : α → RowAct σ β}
    (ha : Leads t items before mid a) (he : ∀ e, mid (.error e) = after (.error e))
    (hf : ∀ x, Leads t items (mid (.ok x)) after (f x)) : Leads t items before after (a >>= f) := by
  intro s w
  have h := ha s w
  rw [run_bind]
  rcases hr : a.run (s, w) with ⟨e | x, s', w'⟩
  · rw [hr] at h
    rw [← he e]
    exact h
  · rw [hr] at h
    exact Relation.ReflTransGen.trans h (hf x s' w')

lemma get {f : σ × World → RowAct σ β} (hf : ∀ p, Leads t items before after (f p)) :
    Leads t items before after (MonadState.get >>= f) := fun s w => hf (s, w) s w

/-- An operation of the client is an operation of the application. -/
lemma ofAct {a : Act α} {f : α → Multiset Item} (op : Operation)
    (hop : op.perform = a >>= fun x => Pure.pure (f x))
    (hp : op.Permitted t) (hs : op.spends = 0)
    (hu : ∀ s, ∀ i ∈ op.uses, ∃ j ∈ before + items s, i ∈ j.parts) :
    Leads t items before (fun r => (r.toOption.elim 0 f) + before) (RowAct.ofAct a) := by
  intro s w
  refine Relation.ReflTransGen.single ⟨op, hp, ⟨hu s, hs ▸ Multiset.zero_le _⟩, ?_⟩
  unfold Operation.after
  rw [run_ofAct, hop, hs, Act.run_bind, tsub_zero, Multiset.add_assoc]
  dsimp only
  obtain ⟨e | x, w'⟩ := a.run w
  · rfl
  · rfl

/-- A resultset is dropped, whatever came of its walk. -/
lemma sweeping {rs : Resultset} {a : RowAct σ β}
    (ha : Leads t items before (fun r => {.resultset rs} + after r) a) :
    Leads t items before after (RowAct.sweeping rs.drop a) := fun s w =>
  Relation.ReflTransGen.tail (ha s w) (by
    rw [Multiset.add_assoc]
    exact rs.step_drop _ _)

end Leads
end RowAct

/-- A callback is a run: it gives the resultset that it is lent back. -/
def Lending (t : Terms) (items : σ → Multiset Item) (callback : Resultset → RowAct σ Bool) : Prop :=
  ∀ rs, RowAct.Leads t items {.resultset rs} (fun _ => {.resultset rs}) (callback rs)

namespace Resultset
open RowAct
variable {callback : Resultset → RowAct σ Bool}

/-- A step of the cursor. -/
lemma leads_next (rs : Resultset) :
    Leads t items {.resultset rs} (fun _ => {.resultset rs}) (RowAct.ofAct rs.next) := by
  have hu : ∀ s, ∀ i ∈ Operation.uses (.resultset rs .next),
      ∃ j ∈ {Item.resultset rs} + items s, i ∈ j.parts := by
    intro s i hi
    rw [List.mem_singleton.mp hi]
    exact ⟨.resultset rs, by simp, List.mem_singleton_self _⟩
  have h : Leads t items {.resultset rs} _ (RowAct.ofAct rs.next) :=
    Leads.ofAct (f := fun _ => 0) (.resultset rs .next) rfl trivial rfl hu
  refine Eq.mp (congrArg (fun after => Leads t items _ after _) (funext fun r => ?_)) h
  cases r <;> exact Multiset.zero_add _

lemma leads_note (n : Notice) : Leads t items before (fun _ => before) (RowAct.ofAct (Act.note n)) := by
  have h : Leads t items before _ (RowAct.ofAct (Act.note n)) :=
    Leads.ofAct (f := fun _ => 0) (.note n) rfl trivial rfl fun s i hi => absurd hi List.not_mem_nil
  refine Eq.mp (congrArg (fun after => Leads t items _ after _) (funext fun r => ?_)) h
  cases r <;> exact Multiset.zero_add _

lemma leads_walk (hc : Lending t items callback) (rs : Resultset) (fuel count : Nat) :
    Leads t items {.resultset rs} (fun _ => {.resultset rs}) (rs.walk callback fuel count) := by
  induction fuel generalizing count with
  | zero => exact Leads.pure count rfl
  | succ fuel ih =>
    refine (leads_next rs).bind (fun _ => rfl) fun moved => ?_
    cases moved with
    | false => exact Leads.pure count rfl
    | true =>
      refine (hc rs).bind (fun _ => rfl) fun accepted => ?_
      cases accepted with
      | false => exact Leads.pure count rfl
      | true => exact ih (count + 1)

/-- A walk over the rows of a resultset that takes at most so many steps. -/
def forEachWithin (rows : Nat) (callback : Resultset → RowAct σ Bool) (rs : Resultset) : RowAct σ Nat := do
  let count ← rs.walk callback rows 0
  RowAct.ofAct (Act.note (.accepted count))
  pure count

lemma leads_forEachWithin (hc : Lending t items callback) (rows : Nat) (rs : Resultset) :
    Leads t items {.resultset rs} (fun _ => {.resultset rs}) (rs.forEachWithin rows callback) :=
  (leads_walk hc rs rows 0).bind (fun _ => rfl) fun _ =>
    (leads_note _).bind (fun _ => rfl) fun _ => Leads.pure _ rfl

lemma leads_forEach (hc : Lending t items callback) (rs : Resultset) :
    Leads t items {.resultset rs} (fun _ => {.resultset rs}) (rs.forEach callback) :=
  Leads.get fun _ => leads_forEachWithin hc _ rs

end Resultset

namespace Statement
open RowAct Resultset
variable {callback : Resultset → RowAct σ Bool}

/-- A statement that stays at hand is asked for a resultset. -/
lemma leads_ask {stmt : Statement} (hs : ∀ s, .statement stmt ∈ items s) {ask : Act (Option Resultset)}
    (k : StatementCall) (hk : k.perform stmt = ask >>= fun rs => pure (resultsetItems rs)) :
    Leads t items before (fun r => r.toOption.elim 0 resultsetItems + before) (RowAct.ofAct ask) := by
  refine Leads.ofAct (.statement stmt k) hk trivial rfl fun s i hi => ?_
  rw [List.mem_singleton.mp hi]
  exact ⟨.statement stmt, Multiset.mem_add.mpr (.inr (hs s)), List.mem_cons_self⟩

/-- A link of the chain: a resultset is walked over and dropped when the next one is there. -/
lemma leads_link {stmt : Statement} (hs : ∀ s, .statement stmt ∈ items s) {rs : Resultset} {walk : RowAct σ Nat}
    (hwalk : Leads t items {.resultset rs} (fun _ => {.resultset rs}) walk) :
    Leads t items {.resultset rs} (fun r => r.toOption.elim 0 fun p => resultsetItems p.2)
      (RowAct.sweeping rs.drop (do
        let count ← walk
        let next ← RowAct.ofAct stmt.nextResultset
        pure (count, next))) := by
  refine Leads.sweeping (hwalk.bind (fun _ => (Multiset.add_zero _).symm) fun count => ?_)
  have hask : Leads t items {.resultset rs} _ (RowAct.ofAct stmt.nextResultset) := leads_ask hs .nextResultset rfl
  refine hask.bind (fun _ => Multiset.add_comm _ _) fun next => ?_
  exact Leads.pure (count, next) (Multiset.add_comm _ _)

lemma leads_walkChain {stmt : Statement} (hs : ∀ s, .statement stmt ∈ items s) {walk : Resultset → RowAct σ Nat}
    (hwalk : ∀ rs, Leads t items {.resultset rs} (fun _ => {.resultset rs}) (walk rs))
    (fuel : Nat) (rs : Option Resultset) (total : Nat) :
    Leads t items (resultsetItems rs) (fun _ => 0) (stmt.walkChain walk fuel rs total) := by
  induction fuel generalizing rs total with
  | zero =>
    cases rs with
    | none => exact Leads.pure total rfl
    | some rs => exact Leads.sweeping (Leads.pure total rfl)
  | succ fuel ih =>
    cases rs with
    | none => exact Leads.pure total rfl
    | some rs => exact (leads_link hs (hwalk rs)).bind (fun _ => rfl) fun p => ih p.2 _

/-- A walk over all resultsets of a statement that takes at most so many of them, and at most so many steps in each. -/
def fetchWithin (rows resultsets : Nat) (s : Statement) (callback : Resultset → RowAct σ Bool) : RowAct σ Nat := do
  let first ← RowAct.ofAct s.resultset
  s.walkChain (forEachWithin rows callback) resultsets first 0

/-- A walk over all resultsets of a statement is a run, if the statement stays at hand all the while. -/
theorem runs_fetch {stmt : Statement} (hs : ∀ s, .statement stmt ∈ items s) (hc : Lending t items callback)
    (s : σ) (w : World) : Runs t ⟨w, items s⟩ ⟨((stmt.fetch callback).run (s, w)).2.2,
      items ((stmt.fetch callback).run (s, w)).2.1⟩ := by
  have hask : Leads t items 0 _ (RowAct.ofAct stmt.resultset) := leads_ask hs .resultset rfl
  have h : Leads t items 0 (fun _ => 0) (stmt.fetch callback) := by
    refine hask.bind (fun _ => rfl) fun first => Leads.get fun _ => ?_
    rw [Multiset.add_zero]
    exact leads_walkChain hs (leads_forEach hc) _ first 0
  have hrun := h s w
  rwa [Multiset.zero_add, Multiset.zero_add] at hrun

end Statement
end DbClient
