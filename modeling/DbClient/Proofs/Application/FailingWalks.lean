import DbClient.Proofs.Application.Walks

/-! Walks that fail. The error of a walk is that of an operation which the walk performs on its way, or that of the
callback. What came before and what comes after is the application's run. -/
namespace DbClient
open Application

variable {σ α β : Type} {t : Terms} {items : σ → Multiset Item} {before : Multiset Item}
  {callback : Resultset → RowAct σ Bool}

namespace RowAct

/-- An operation of an application fails, or a callback that is lent a resultset. -/
inductive Fails (t : Terms) (items : σ → Multiset Item) (callback : Resultset → RowAct σ Bool) (x : ClientError) :
    Application → Application → Prop
  | operation {a : Application} {op : Operation} (hp : op.Permitted t) (hr : a.Ready op)
      (h : (op.perform.run a.world).1 = .error x) : Fails t items callback x a (op.after a)
  | callback {rs : Resultset} {s s' : σ} {w w' : World} (h : (callback rs).run (s, w) = (.error x, (s', w'))) :
      Fails t items callback x ⟨w, {.resultset rs} + items s⟩ ⟨w', {.resultset rs} + items s'⟩

/-- A part of a walk that fails does so for a reason: on the run that it is something fails with the same error. -/
def Reasoned (t : Terms) (items : σ → Multiset Item) (callback : Resultset → RowAct σ Bool) (before : Multiset Item)
    (after : Except ClientError α → Multiset Item) (a : RowAct σ α) : Prop :=
  ∀ s w x s' w', a.run (s, w) = (.error x, (s', w')) → ∃ b c, Runs t ⟨w, before + items s⟩ b ∧
    Fails t items callback x b c ∧ Runs t c ⟨w', after (.error x) + items s'⟩

namespace Reasoned
variable {after : Except ClientError β → Multiset Item}

lemma pure {after : Except ClientError α → Multiset Item} (x : α) :
    Reasoned t items callback before after (Pure.pure x) := fun _ _ _ _ _ h => by
  cases congrArg Prod.fst h

theorem bind {mid : Except ClientError α → Multiset Item} {a : RowAct σ α} {f : α → RowAct σ β}
    (hr : Reasoned t items callback before mid a) (ha : Leads t items before mid a)
    (he : ∀ e, mid (.error e) = after (.error e))
    (hf : ∀ x, Reasoned t items callback (mid (.ok x)) after (f x)) :
    Reasoned t items callback before after (a >>= f) := by
  intro s w x s' w' h
  rw [run_bind] at h
  have hlead := ha s w
  rcases hrun : a.run (s, w) with ⟨e | y, s₁, w₁⟩ <;> rw [hrun] at h hlead
  · obtain ⟨h1, h2⟩ := Prod.mk.inj h
    obtain rfl := Except.error.inj h1
    obtain ⟨rfl, rfl⟩ := Prod.mk.inj h2
    exact he e ▸ hr s w e _ _ hrun
  · obtain ⟨b, c, hb, hfail, hc⟩ := hf y s₁ w₁ x s' w' h
    exact ⟨b, c, Relation.ReflTransGen.trans hlead hb, hfail, hc⟩

lemma get {f : σ × World → RowAct σ β} (hf : ∀ p, Reasoned t items callback before after (f p)) :
    Reasoned t items callback before after (MonadState.get >>= f) := fun s w => hf (s, w) s w

/-- An operation of the client fails itself. -/
lemma ofAct {a : Act α} {f : α → Multiset Item} (op : Operation)
    (hop : op.perform = a >>= fun x => Pure.pure (f x)) (hp : op.Permitted t) (hs : op.spends = 0)
    (hu : ∀ s, ∀ i ∈ op.uses, ∃ j ∈ before + items s, i ∈ j.parts) :
    Reasoned t items callback before (fun r => (r.toOption.elim 0 f) + before) (RowAct.ofAct a) := by
  intro s w x s' w' h
  have hready : Ready ⟨w, before + items s⟩ op := ⟨hu s, hs ▸ Multiset.zero_le _⟩
  have hafter := Leads.ofAct op hop hp hs hu s w
  rw [run_ofAct] at h hafter
  obtain ⟨h1, h2⟩ := Prod.mk.inj h
  obtain ⟨rfl, rfl⟩ := Prod.mk.inj h2
  have hperform : op.perform.run w = (.error x, (a.run w).2) := by
    rw [hop, Act.run_bind, show a.run w = (.error x, (a.run w).2) from Prod.ext h1 rfl]
  refine ⟨_, _, Relation.ReflTransGen.refl, .operation hp hready (congrArg Prod.fst hperform), ?_⟩
  have hstep : op.after ⟨w, before + items s⟩ = ⟨(a.run w).2, 0 + before + items s⟩ := by
    unfold Operation.after
    rw [hperform, hs, tsub_zero, Multiset.add_assoc]
    rfl
  rw [hstep]
  exact Relation.ReflTransGen.refl

lemma sweeping {rs : Resultset} {a : RowAct σ β}
    (ha : Reasoned t items callback before (fun r => {.resultset rs} + after r) a) :
    Reasoned t items callback before after (RowAct.sweeping rs.drop a) := by
  intro s w x s' w' h
  rw [run_sweeping] at h
  obtain ⟨h1, h2⟩ := Prod.mk.inj h
  obtain ⟨rfl, rfl⟩ := Prod.mk.inj h2
  obtain ⟨b, c, hb, hfail, hc⟩ := ha s w x _ _ (Prod.ext h1 rfl)
  rw [Multiset.add_assoc] at hc
  exact ⟨b, c, hb, hfail, Relation.ReflTransGen.tail hc (rs.step_drop _ _)⟩

/-- A callback that is a run fails itself. -/
lemma lent (rs : Resultset) :
    Reasoned t items callback {.resultset rs} (fun _ => {.resultset rs}) (callback rs) := fun _ _ _ _ _ h =>
  ⟨_, _, Relation.ReflTransGen.refl, .callback h, Relation.ReflTransGen.refl⟩

end Reasoned
end RowAct

namespace Resultset
open RowAct

lemma reasoned_next (rs : Resultset) :
    Reasoned t items callback {.resultset rs} (fun _ => {.resultset rs}) (RowAct.ofAct rs.next) := by
  have h : Reasoned t items callback {.resultset rs} _ (RowAct.ofAct rs.next) :=
    Reasoned.ofAct (f := fun _ => 0) (.resultset rs .next) rfl trivial rfl fun s i hi => by
      rw [List.mem_singleton.mp hi]
      exact ⟨.resultset rs, by simp, List.mem_singleton_self _⟩
  refine Eq.mp (congrArg (fun after => Reasoned t items callback _ after _) (funext fun r => ?_)) h
  cases r <;> exact Multiset.zero_add _

lemma reasoned_walk (hc : Lending t items callback) (rs : Resultset) (fuel count : Nat) :
    Reasoned t items callback {.resultset rs} (fun _ => {.resultset rs}) (rs.walk callback fuel count) := by
  induction fuel generalizing count with
  | zero => exact Reasoned.pure count
  | succ fuel ih =>
    refine (rs.reasoned_next).bind rs.leads_next (fun _ => rfl) fun moved => ?_
    cases moved with
    | false => exact Reasoned.pure count
    | true =>
      refine (Reasoned.lent rs).bind (hc rs) (fun _ => rfl) fun accepted => ?_
      cases accepted with
      | false => exact Reasoned.pure count
      | true => exact ih (count + 1)

/-- A walk over a resultset fails for a reason, however many steps it may take. -/
theorem reasoned_forEachWithin (hc : Lending t items callback) (rows : Nat) (rs : Resultset) :
    Reasoned t items callback {.resultset rs} (fun _ => {.resultset rs}) (rs.forEachWithin rows callback) :=
  (reasoned_walk hc rs rows 0).bind (leads_walk hc rs rows 0) (fun _ => rfl) fun _ _ _ _ _ _ h => by
    cases congrArg Prod.fst h

theorem reasoned_forEach (hc : Lending t items callback) (rs : Resultset) :
    Reasoned t items callback {.resultset rs} (fun _ => {.resultset rs}) (rs.forEach callback) :=
  Reasoned.get fun _ => reasoned_forEachWithin hc _ rs

end Resultset

namespace Statement
open RowAct Resultset

lemma reasoned_ask {stmt : Statement} (hs : ∀ s, .statement stmt ∈ items s) {ask : Act (Option Resultset)}
    (k : StatementCall) (hk : k.perform stmt = ask >>= fun rs => pure (resultsetItems rs)) :
    Reasoned t items callback before (fun r => r.toOption.elim 0 resultsetItems + before) (RowAct.ofAct ask) :=
  Reasoned.ofAct (.statement stmt k) hk trivial rfl fun s i hi => by
    rw [List.mem_singleton.mp hi]
    exact ⟨.statement stmt, Multiset.mem_add.mpr (.inr (hs s)), List.mem_cons_self⟩

lemma reasoned_walkChain {stmt : Statement} (hs : ∀ s, .statement stmt ∈ items s) {walk : Resultset → RowAct σ Nat}
    (hwalk : ∀ rs, Reasoned t items callback {.resultset rs} (fun _ => {.resultset rs}) (walk rs))
    (hl : ∀ rs, Leads t items {.resultset rs} (fun _ => {.resultset rs}) (walk rs))
    (fuel : Nat) (rs : Option Resultset) (total : Nat) :
    Reasoned t items callback (resultsetItems rs) (fun _ => 0) (stmt.walkChain walk fuel rs total) := by
  induction fuel generalizing rs total with
  | zero =>
    cases rs with
    | none => exact Reasoned.pure total
    | some rs => exact Reasoned.sweeping (Reasoned.pure total)
  | succ fuel ih =>
    cases rs with
    | none => exact Reasoned.pure total
    | some rs =>
      have hask : Reasoned t items callback {.resultset rs} _ (RowAct.ofAct stmt.nextResultset) :=
        reasoned_ask hs .nextResultset rfl
      have hlead : Leads t items {.resultset rs} _ (RowAct.ofAct stmt.nextResultset) := leads_ask hs .nextResultset rfl
      have hpair : ∀ count : Nat, Reasoned t items callback {.resultset rs}
          (fun r => {.resultset rs} + r.toOption.elim 0 fun p : Nat × Option Resultset => resultsetItems p.2)
          (RowAct.ofAct stmt.nextResultset >>= fun next => pure (count, next)) := fun count =>
        hask.bind hlead (fun _ => Multiset.add_comm _ _) fun next => Reasoned.pure (count, next)
      have hlink := Reasoned.sweeping ((hwalk rs).bind (hl rs) (fun _ => (Multiset.add_zero _).symm) hpair)
      exact hlink.bind (leads_link hs (hl rs)) (fun _ => rfl) fun p => ih p.2 _

/-- What begins with the first resultset fails for a reason if the rest of it does. -/
lemma reasoned_first {stmt : Statement} (hs : ∀ s, .statement stmt ∈ items s) {f : Option Resultset → RowAct σ Nat}
    (hf : ∀ first, Reasoned t items callback (resultsetItems first) (fun _ => 0) (f first)) :
    Reasoned t items callback 0 (fun _ => 0) (RowAct.ofAct stmt.resultset >>= f) := by
  have hask : Leads t items 0 _ (RowAct.ofAct stmt.resultset) := leads_ask hs .resultset rfl
  have hreason : Reasoned t items callback 0 _ (RowAct.ofAct stmt.resultset) := reasoned_ask hs .resultset rfl
  refine hreason.bind hask (fun _ => rfl) fun first => ?_
  rw [Multiset.add_zero]
  exact hf first

/-- A walk over all resultsets of a statement fails for a reason, however many of them it may take. -/
theorem reasoned_fetchWithin {stmt : Statement} (hs : ∀ s, .statement stmt ∈ items s) (hc : Lending t items callback)
    (rows resultsets : Nat) :
    Reasoned t items callback 0 (fun _ => 0) (stmt.fetchWithin rows resultsets callback) :=
  reasoned_first hs fun first =>
    reasoned_walkChain hs (reasoned_forEachWithin hc rows) (leads_forEachWithin hc rows) resultsets first 0

theorem reasoned_fetch {stmt : Statement} (hs : ∀ s, .statement stmt ∈ items s) (hc : Lending t items callback) :
    Reasoned t items callback 0 (fun _ => 0) (stmt.fetch callback) :=
  reasoned_first hs fun first => Reasoned.get fun _ =>
    reasoned_walkChain hs (reasoned_forEach hc) (leads_forEach hc) _ first 0

end Statement
end DbClient
