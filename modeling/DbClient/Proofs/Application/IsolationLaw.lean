import DbClient.Proofs.Application.Bystanders

/-! The law of isolation, in any application and with anything made to fail: what is done with one statement leaves
every other statement as it was. So does a walk over its rows, if the callback does. -/
namespace DbClient
open Act World Application

variable {σ α β : Type} {items : σ → Multiset Item} {before : Multiset Item} {s b : Statement}
  {callback : Resultset → RowAct σ Bool}

namespace Application
variable {a c : Application}

/-- On a run, nodes keep their places as long as they live. -/
lemma Reachable.keepsTrunks (h : Reachable ⟨false, true⟩ a) (hr : Runs ⟨false, true⟩ a c) :
    KeepsTrunks a.world c.world := by
  induction hr with
  | refl => exact .refl _
  | tail hrun hstep ih =>
    obtain ⟨op, hp, hready, rfl⟩ := hstep
    have hmid : Reachable ⟨false, true⟩ _ := Relation.ReflTransGen.trans h hrun
    exact ih.trans (op.keepsTrunks hmid.standing hp (hmid.fine hready))

end Application

/-! ### Walks that pass a statement by -/

namespace RowAct
variable {P : World → Prop} {mid : Except ClientError α → Multiset Item} {after : Except ClientError β → Multiset Item}

/-- A part of a walk is a run that leaves a statement as it was. A condition holds before, and one on its result after.
-/
structure Passes (b : Statement) (items : σ → Multiset Item) (before : Multiset Item) (P : World → Prop)
    (after : Except ClientError α → Multiset Item) (Q : α → World → Prop) (a : RowAct σ α) : Prop where
  leads : Leads ⟨false, true⟩ items before after a
  unmoved : ∀ st w, Reachable ⟨false, true⟩ ⟨w, before + items st⟩ → P w → b.Unmoved w (a.run (st, w)).2.2
  gives : ∀ st w x, Reachable ⟨false, true⟩ ⟨w, before + items st⟩ → P w → (a.run (st, w)).1 = .ok x →
    Q x (a.run (st, w)).2.2

namespace Passes

/-- The run goes on. -/
lemma reachable {Q : α → World → Prop} {a : RowAct σ α} (ha : Passes b items before P mid Q a) {st : σ} {w : World}
    (h : Reachable ⟨false, true⟩ ⟨w, before + items st⟩) :
    Reachable ⟨false, true⟩ ⟨(a.run (st, w)).2.2, mid (a.run (st, w)).1 + items (a.run (st, w)).2.1⟩ :=
  Relation.ReflTransGen.trans h (ha.leads st w)

/-- What lasts as long as nodes keep their places is still there after a run. -/
lemma lasting {a : RowAct σ α} (hl : Leads ⟨false, true⟩ items before mid a)
    (hu : ∀ st w, Reachable ⟨false, true⟩ ⟨w, before + items st⟩ → P w → b.Unmoved w (a.run (st, w)).2.2)
    (hP : ∀ w w', KeepsTrunks w w' → P w → P w') : Passes b items before P mid (fun _ => P) a :=
  ⟨hl, hu, fun st w _ h hp _ => hP w _ (h.keepsTrunks (hl st w)) hp⟩

lemma pure {Q : β → World → Prop} (hb : ∀ st w, Reachable ⟨false, true⟩ ⟨w, before + items st⟩ → b.Unmoved w w)
    (x : β) (h : before = after (.ok x)) (hQ : ∀ w, P w → Q x w) : Passes b items before P after Q (Pure.pure x) :=
  ⟨.pure x h, fun st w hr _ => hb st w hr, fun _ w _ _ hp hx => Except.ok.inj hx ▸ hQ w hp⟩

theorem bind {Q : α → World → Prop} {R : β → World → Prop} {a : RowAct σ α} {f : α → RowAct σ β}
    (ha : Passes b items before P mid Q a) (he : ∀ e, mid (.error e) = after (.error e))
    (hf : ∀ x, Passes b items (mid (.ok x)) (Q x) after R (f x)) : Passes b items before P after R (a >>= f) := by
  refine ⟨ha.leads.bind he fun x => (hf x).leads, fun st w h hp => ?_, fun st w y h hp hy => ?_⟩
  · have hreach := ha.reachable h
    have hu := ha.unmoved st w h hp
    have hQ := ha.gives st w
    rw [run_bind]
    rcases hr : a.run (st, w) with ⟨e | x, st', w'⟩ <;> rw [hr] at hreach hu hQ
    · exact hu
    · exact hu.trans ((hf x).unmoved st' w' hreach (hQ x h hp rfl))
  · have hreach := ha.reachable h
    have hQ := ha.gives st w
    rw [run_bind] at hy ⊢
    rcases hr : a.run (st, w) with ⟨e | x, st', w'⟩ <;> rw [hr] at hreach hQ hy
    · cases hy
    · exact (hf x).gives st' w' y hreach (hQ x h hp rfl) hy

lemma pre {P' : World → Prop} {R : β → World → Prop} {a : RowAct σ β} (ha : Passes b items before P after R a)
    (hP : ∀ w, P' w → P w) : Passes b items before P' after R a :=
  ⟨ha.leads, fun st w h hp => ha.unmoved st w h (hP w hp), fun st w x h hp => ha.gives st w x h (hP w hp)⟩

lemma get {R : β → World → Prop} {f : σ × World → RowAct σ β} (hf : ∀ p, Passes b items before P after R (f p)) :
    Passes b items before P after R (MonadState.get >>= f) :=
  ⟨.get fun p => (hf p).leads, fun st w => (hf (st, w)).unmoved st w, fun st w => (hf (st, w)).gives st w⟩

end Passes
end RowAct

/-- Two statements stay at hand during a walk. -/
def Statement.AtHandWith (items : σ → Multiset Item) (s b : Statement) : Prop :=
  (∀ st, {.statement s} + {.statement b} ≤ items st) ∧ ∀ id, s.handle.node = some id → b.handle.node ≠ some id

namespace Statement.AtHandWith
variable (hd : s.AtHandWith items b)
include hd

lemma distinct (st : σ) (w : World) : Distinct ⟨w, before + items st⟩ s b :=
  ⟨le_trans (hd.1 st) (Multiset.le_add_left _ _), hd.2⟩

lemma acting (st : σ) : .statement s ∈ items st :=
  Multiset.mem_of_le (hd.1 st) (Multiset.mem_add.mpr (.inl (Multiset.mem_singleton_self _)))

/-- Nothing has been done yet. -/
lemma still {st : σ} {w : World} (h : Reachable ⟨false, true⟩ ⟨w, before + items st⟩) : b.Unmoved w w :=
  (hd.distinct st w).unmoved_of_within h (.refl w)

end Statement.AtHandWith

/-- A resultset of one statement is dropped, whatever came of its walk. -/
lemma RowAct.Passes.sweeping {P : World → Prop} {after : Except ClientError β → Multiset Item} {R : β → World → Prop}
    {rs : Resultset} {a : RowAct σ β} (hd : s.AtHandWith items b)
    (ha : Passes b items before P (fun r => {.resultset rs} + after r) R a) (hrs : ∀ w, P w → rs.Of s w)
    (hR : ∀ x w w', KeepsTrunks w w' → R x w → R x w') :
    Passes b items before P after R (RowAct.sweeping rs.drop a) := by
  have hdrop : ∀ st w, Reachable ⟨false, true⟩ ⟨w, before + items st⟩ → P w →
      b.Unmoved (a.run (st, w)).2.2 (rs.drop (a.run (st, w)).2.2) ∧
        KeepsTrunks (a.run (st, w)).2.2 (rs.drop (a.run (st, w)).2.2) := fun st w h hp => by
    have hreach := ha.reachable h
    have hof := (hrs w hp).keep (h.keepsTrunks (ha.leads st w))
    dsimp only at hreach hof
    generalize a.run (st, w) = p at hreach hof ⊢
    have hdist : Distinct ⟨p.2.2, {.resultset rs} + after p.1 + items p.2.1⟩ s b := hd.distinct p.2.1 p.2.2
    have hheld : Holds ⟨p.2.2, {.resultset rs} + after p.1 + items p.2.1⟩ (.resultset rs) :=
      ⟨.resultset rs, by simp, List.mem_singleton_self _⟩
    have hwithin : StepsWithin (b.elsewhere p.2.2) p.2.2 (rs.drop p.2.2) :=
      StepsWithin.drop (Wrapper.droppable_of_node fun id hid => hdist.resultset_elsewhere hreach hof hheld hid)
    exact ⟨hdist.unmoved_of_within hreach hwithin, hwithin.keepsTrunks hreach.standing⟩
  refine ⟨.sweeping ha.leads, fun st w h hp => (ha.unmoved st w h hp).trans (hdrop st w h hp).1,
    fun st w x h hp hx => hR x _ _ (hdrop st w h hp).2 (ha.gives st w x h hp hx)⟩

/-- A callback that is lent a resultset of one statement leaves the other one as it was. -/
def Bystanding (items : σ → Multiset Item) (s b : Statement) (callback : Resultset → RowAct σ Bool) : Prop :=
  ∀ rs st w, Reachable ⟨false, true⟩ ⟨w, {.resultset rs} + items st⟩ → rs.Of s w →
    b.Unmoved w ((callback rs).run (st, w)).2.2

namespace Resultset
open RowAct

lemma passes_next (hd : s.AtHandWith items b) (rs : Resultset) :
    Passes b items {.resultset rs} (rs.Of s) (fun _ => {.resultset rs}) (fun _ => rs.Of s) (RowAct.ofAct rs.next) := by
  refine .lasting rs.leads_next (fun st w h hrs => ?_) fun _ _ hw hrs => hrs.keep hw
  have hheld : Holds ⟨w, {.resultset rs} + items st⟩ (.resultset rs) :=
    ⟨.resultset rs, by simp, List.mem_singleton_self _⟩
  refine (hd.distinct st w).unmoved_of_within h (Resultset.tells_fetch (fun id hid => ?_) .next).within
  exact (hd.distinct st w).resultset_elsewhere h hrs hheld hid

lemma passes_walk (hd : s.AtHandWith items b) (hc : Lending ⟨false, true⟩ items callback)
    (hb : Bystanding items s b callback) (rs : Resultset) (fuel count : Nat) :
    Passes b items {.resultset rs} (rs.Of s) (fun _ => {.resultset rs}) (fun _ => rs.Of s)
      (rs.walk callback fuel count) := by
  induction fuel generalizing count with
  | zero => exact .pure (fun _ _ h => hd.still h) count rfl fun _ hrs => hrs
  | succ fuel ih =>
    refine (passes_next hd rs).bind (fun _ => rfl) fun moved => ?_
    cases moved with
    | false => exact .pure (fun _ _ h => hd.still h) count rfl fun _ hrs => hrs
    | true =>
      refine (Passes.lasting (hc rs) (hb rs) fun _ _ hw hrs => hrs.keep hw).bind (fun _ => rfl) fun accepted => ?_
      cases accepted with
      | false => exact .pure (fun _ _ h => hd.still h) count rfl fun _ hrs => hrs
      | true => exact ih (count + 1)

/-- A walk over a resultset of one statement leaves the other one as it was, however many steps it may take. -/
theorem passes_forEachWithin (hd : s.AtHandWith items b) (hc : Lending ⟨false, true⟩ items callback)
    (hb : Bystanding items s b callback) (rows : Nat) (rs : Resultset) :
    Passes b items {.resultset rs} (rs.Of s) (fun _ => {.resultset rs}) (fun _ => rs.Of s)
      (rs.forEachWithin rows callback) := by
  refine (passes_walk hd hc hb rs rows 0).bind (fun _ => rfl) fun count => ?_
  have hnote : Passes b items {.resultset rs} (rs.Of s) (fun _ => {.resultset rs}) (fun _ => rs.Of s)
      (RowAct.ofAct (Act.note (.accepted count)) : RowAct σ Unit) :=
    .lasting (leads_note _) (fun st w h _ => (hd.distinct st w).unmoved_of_within h (StepsWithin.log _ w))
      fun _ _ hw hrs => hrs.keep hw
  exact hnote.bind (fun _ => rfl) fun _ => .pure (fun _ _ h => hd.still h) count rfl fun _ hrs => hrs

theorem passes_forEach (hd : s.AtHandWith items b) (hc : Lending ⟨false, true⟩ items callback)
    (hb : Bystanding items s b callback) (rs : Resultset) :
    Passes b items {.resultset rs} (rs.Of s) (fun _ => {.resultset rs}) (fun _ => rs.Of s) (rs.forEach callback) :=
  Passes.get fun _ => passes_forEachWithin hd hc hb _ rs

end Resultset

namespace Statement
open RowAct Resultset

/-- What a statement has given is one of its resultsets, if it is any. -/
def Given (s : Statement) (rs : Option Resultset) (w : World) : Prop := ∀ r, rs = some r → r.Of s w

lemma passes_ask (hd : s.AtHandWith items b) {operation : String}
    {ask : Address → Library → Option Address × Library} (hask : Asks ask) {i : Address → Invocation}
    (hi : AsksBy ask i) (k : StatementCall)
    (hk : k.perform s = s.takeResultset operation ask >>= fun rs => pure (resultsetItems rs)) (P : World → Prop) :
    Passes b items before P (fun r => r.toOption.elim 0 resultsetItems + before) s.Given
      (RowAct.ofAct (s.takeResultset operation ask)) := by
  have housed : ∀ {st w}, Reachable ⟨false, true⟩ ⟨w, before + items st⟩ → w.Housed s.env := fun {st w} h =>
    (h.fit.housed (.statement s) (Multiset.mem_add.mpr (.inr (hd.acting st)))).1
  refine ⟨leads_ask hd.acting k hk, fun st w h _ => ?_, fun st w x h _ hx rs he => ?_⟩
  · have hdist : Distinct ⟨w, before + items st⟩ s b := hd.distinct st w
    exact hdist.unmoved_of_within h
      (tells_takeResultset hask hi h.standing (hdist.covers h) (housed h) operation).within
  · subst he
    obtain ⟨id, j, m, hid, hj, hm, hparent, -⟩ :=
      below_of_takeResultset hask rfl h.fit.sound (h.owns rfl) (housed h) (Prod.ext hx rfl)
    intro i hi
    obtain rfl := Option.some.inj (hj.symm.trans hi)
    refine ⟨m, hm.1, fun _ => ⟨id, hid, hparent⟩⟩

/-- A link of the chain. -/
lemma passes_link (hd : s.AtHandWith items b) {rs : Resultset} {walk : RowAct σ Nat}
    (hwalk : Passes b items {.resultset rs} (rs.Of s) (fun _ => {.resultset rs}) (fun _ => rs.Of s) walk) :
    Passes b items {.resultset rs} (rs.Of s) (fun r => r.toOption.elim 0 fun p => resultsetItems p.2)
      (fun p => s.Given p.2) (RowAct.sweeping rs.drop (do
        let count ← walk
        let next ← RowAct.ofAct s.nextResultset
        pure (count, next))) := by
  have hask : Passes b items {.resultset rs} (rs.Of s) _ s.Given (RowAct.ofAct s.nextResultset) :=
    passes_ask hd asks_nextResultset asksBy_nextResultset .nextResultset rfl (rs.Of s)
  refine .sweeping hd (hwalk.bind (fun _ => (Multiset.add_zero _).symm) fun count => ?_) (fun _ hrs => hrs)
    fun _ _ _ hw hgiven r hr => (hgiven r hr).keep hw
  refine hask.bind (fun _ => Multiset.add_comm _ _) fun next => ?_
  exact .pure (fun _ _ h => hd.still h) (count, next) (Multiset.add_comm _ _) fun _ hgiven => hgiven

lemma passes_walkChain (hd : s.AtHandWith items b) {walk : Resultset → RowAct σ Nat}
    (hwalk : ∀ rs, Passes b items {.resultset rs} (rs.Of s) (fun _ => {.resultset rs}) (fun _ => rs.Of s) (walk rs))
    (fuel : Nat) (rs : Option Resultset) (total : Nat) :
    Passes b items (resultsetItems rs) (s.Given rs) (fun _ => 0) (fun _ _ => True)
      (s.walkChain walk fuel rs total) := by
  induction fuel generalizing rs total with
  | zero =>
    cases rs with
    | none => exact .pure (fun _ _ h => hd.still h) total rfl fun _ _ => trivial
    | some rs =>
      exact .sweeping hd (.pure (fun _ _ h => hd.still h) total rfl fun _ _ => trivial) (fun _ hgiven => hgiven rs rfl)
        fun _ _ _ _ h => h
  | succ fuel ih =>
    cases rs with
    | none => exact .pure (fun _ _ h => hd.still h) total rfl fun _ _ => trivial
    | some rs =>
      exact ((passes_link hd (hwalk rs)).pre fun _ hgiven => hgiven rs rfl).bind (fun _ => rfl) fun p => ih p.2 _

/-- What begins with the first resultset leaves the other statement as it was if the rest of it does. -/
lemma passes_first (hd : s.AtHandWith items b) {f : Option Resultset → RowAct σ Nat}
    (hf : ∀ first, Passes b items (resultsetItems first) (s.Given first) (fun _ => 0) (fun _ _ => True) (f first)) :
    Passes b items 0 (fun _ => True) (fun _ => 0) (fun _ _ => True) (RowAct.ofAct s.resultset >>= f) := by
  have hask : Passes b items 0 (fun _ => True) _ s.Given (RowAct.ofAct s.resultset) :=
    passes_ask hd asks_resultset asksBy_resultset .resultset rfl _
  refine hask.bind (fun _ => rfl) fun first => ?_
  rw [Multiset.add_zero]
  exact hf first

/-- A walk over all resultsets of one statement leaves the other one as it was, however many of them it may take. -/
theorem passes_fetchWithin (hd : s.AtHandWith items b) (hc : Lending ⟨false, true⟩ items callback)
    (hb : Bystanding items s b callback) (rows resultsets : Nat) :
    Passes b items 0 (fun _ => True) (fun _ => 0) (fun _ _ => True) (s.fetchWithin rows resultsets callback) :=
  passes_first hd fun first => passes_walkChain hd (passes_forEachWithin hd hc hb rows) resultsets first 0

theorem passes_fetch (hd : s.AtHandWith items b) (hc : Lending ⟨false, true⟩ items callback)
    (hb : Bystanding items s b callback) :
    Passes b items 0 (fun _ => True) (fun _ => 0) (fun _ _ => True) (s.fetch callback) :=
  passes_first hd fun first => .get fun _ => passes_walkChain hd (passes_forEach hd hc hb) _ first 0

end Statement

namespace Application
variable {a c : Application}

/-- A run of operations that all have to do with one of two statements, while both are held and have no variable in
common. -/
def RunsBeside (s b : Statement) : Application → Application → Prop :=
  Relation.ReflTransGen fun a c => ∃ op : Operation, op.Permitted ⟨false, true⟩ ∧ a.Ready op ∧ a.Distinct s b ∧
    s.Unrelated b a.world ∧ op.Concerns s a.world ∧ c = op.after a

lemma RunsBeside.runs (hr : RunsBeside s b a c) : Runs ⟨false, true⟩ a c :=
  Relation.ReflTransGen.mono (fun _ _ ⟨op, hp, hready, _, _, _, he⟩ => ⟨op, hp, hready, he⟩) _ _ hr

lemma RunsBeside.unmoved (h : Reachable ⟨false, true⟩ a) (hd : a.Distinct s b) (hr : RunsBeside s b a c) :
    b.Unmoved a.world c.world := by
  induction hr with
  | refl => exact hd.unmoved_of_within h (.refl _)
  | tail hrun hstep ih =>
    obtain ⟨op, hp, hready, hdist, hv, hc, rfl⟩ := hstep
    exact ih.trans (hdist.unmoved (Relation.ReflTransGen.trans h (RunsBeside.runs hrun)) hv hc hp hready)

/-- Statements do not get in each other's way. -/
structure IsolationLaw (a : Application) : Prop where
  /-- Whatever is done with one of two statements that have no variable in common, and whether or not it succeeds, the
  other one is as it was before: its data, what the native library keeps of it, its resultsets with their wrappers and
  cursors, its buffers and its variables. Its handle and its connection live on if they have lived. -/
  operation : ∀ s b op, a.Distinct s b → s.Unrelated b a.world → op.Concerns s a.world → op.Permitted ⟨false, true⟩ →
    a.Ready op → b.Unmoved a.world (op.after a).world
  /-- So it is after any number of such operations, -/
  runs : ∀ s b c, a.Distinct s b → RunsBeside s b a c → b.Unmoved a.world c.world
  /-- and after a walk over all rows of the one, or over those of one of its resultsets, if the callback leaves the
  other one as it was; -/
  walks : ∀ {σ : Type} (items : σ → Multiset Item) (callback : Resultset → RowAct σ Bool) (st : σ) (s b : Statement),
    s.AtHandWith items b → Lending ⟨false, true⟩ items callback → Bystanding items s b callback →
    (a.items = items st → b.Unmoved a.world ((s.fetch callback).run (st, a.world)).2.2) ∧
    ∀ rs, a.items = {.resultset rs} + items st → rs.Of s a.world →
      b.Unmoved a.world ((rs.forEach callback).run (st, a.world)).2.2
  /-- nor does it matter how many resultsets, and how many steps in each of them, a walk may take. -/
  bounded : ∀ {σ : Type} (items : σ → Multiset Item) (callback : Resultset → RowAct σ Bool) (st : σ) (s b : Statement)
    (rows resultsets : Nat),
    s.AtHandWith items b → Lending ⟨false, true⟩ items callback → Bystanding items s b callback →
    (a.items = items st →
      b.Unmoved a.world ((s.fetchWithin rows resultsets callback).run (st, a.world)).2.2) ∧
    ∀ rs, a.items = {.resultset rs} + items st → rs.Of s a.world →
      b.Unmoved a.world ((rs.forEachWithin rows callback).run (st, a.world)).2.2
  /-- A callback leaves the other one as it was if it has to do with the first statement only. -/
  callbacks : ∀ {σ : Type} (items : σ → Multiset Item) (callback : Resultset → RowAct σ Bool) (s b : Statement),
    s.AtHandWith items b → (∀ rs st w, Reachable ⟨false, true⟩ ⟨w, {.resultset rs} + items st⟩ → rs.Of s w →
      RunsBeside s b ⟨w, {.resultset rs} + items st⟩
        ⟨((callback rs).run (st, w)).2.2, {.resultset rs} + items ((callback rs).run (st, w)).2.1⟩) →
    Bystanding items s b callback

lemma Reachable.holding (h : Reachable ⟨false, true⟩ a) {held : Multiset Item} (hi : a.items = held) :
    Reachable ⟨false, true⟩ ⟨a.world, held⟩ := hi ▸ h

/-- The law of isolation holds whenever an application is between two operations, whatever is made to fail. -/
theorem Reachable.isolationLaw (h : Reachable ⟨false, true⟩ a) : IsolationLaw a where
  operation _ _ _ hd hv hc hp hr := hd.unmoved h hv hc hp hr
  runs _ _ _ hd hr := hr.unmoved h hd
  walks items callback st s b hd hc hb := by
    refine ⟨fun hi => ?_, fun rs hi hrs => ?_⟩
    · have hreach := h.holding (hi.trans (Multiset.zero_add _).symm)
      exact (Statement.passes_fetch hd hc hb).unmoved st a.world hreach trivial
    · exact (Resultset.passes_forEach hd hc hb rs).unmoved st a.world (h.holding hi) hrs
  bounded items callback st s b rows resultsets hd hc hb := by
    refine ⟨fun hi => ?_, fun rs hi hrs => ?_⟩
    · have hreach := h.holding (hi.trans (Multiset.zero_add _).symm)
      exact (Statement.passes_fetchWithin hd hc hb rows resultsets).unmoved st a.world hreach trivial
    · exact (Resultset.passes_forEachWithin hd hc hb rows rs).unmoved st a.world (h.holding hi) hrs
  callbacks items callback s b hd hruns rs st w hreach hrs :=
    RunsBeside.unmoved hreach (hd.distinct st w) (hruns rs st w hreach hrs)

/-- Of two statements that are the last to hold their connection one is dropped: the other one keeps its handle, its
connection and what is bound to it. -/
theorem isolationLaw_after_drop :
    let conn : Connection := ⟨0, ⟨some 1⟩⟩
    let s : Statement := ⟨0, conn, ⟨some 2⟩⟩
    let b : Statement := ⟨0, conn, ⟨some 3⟩⟩
    let a := play [.createEnvironment default, .environment ⟨0, ⟨some 0⟩⟩ (.connect (.ofPassword "db" "user" "word")),
      .connection conn .statement, .connection conn (.prepare "q"), .newVar (.single .bool true),
      .statement b (.bind (.name "x") 0 .input .regular 0), .item (.connection conn) .drop] start
    let w := (Operation.after (.item (.statement s) .drop) a).world
    IsolationLaw a ∧ b.Unmoved a.world w ∧ s.handle.isNull w = true ∧ b.handle.isNull w = false ∧
      b.conn.handle.isNull w = false ∧ (b.data? w).map (fun d => d.binds.names) = some ["x"] := by
  intro conn s b a w
  have hlaw : IsolationLaw a := Reachable.isolationLaw (runs_play ⟨trivial, by decide +kernel, trivial,
    by decide +kernel, trivial, by decide +kernel, trivial, by decide +kernel, trivial, by decide +kernel, trivial,
    by decide +kernel, trivial, by decide +kernel, trivial⟩)
  have hbare : (s.data? a.world).map (fun d => d.binds.objects) = some [] := by decide +kernel
  have hdistinct : a.Distinct s b := ⟨by decide +kernel, fun _ hi hj => by cases hi; cases hj⟩
  have hready : a.Ready (.item (.statement s) .drop) := by decide +kernel
  have hunrelated : s.Unrelated b a.world := fun d e hd _ o ho => by
    rw [hd] at hbare
    obtain hnil : d.binds.objects = [] := Option.some.inj hbare
    rw [hnil] at ho
    cases ho
  exact ⟨hlaw, hlaw.operation s b _ hdistinct hunrelated (.item .drop) trivial hready, by decide +kernel,
    by decide +kernel, by decide +kernel, by decide +kernel⟩

end Application
end DbClient
