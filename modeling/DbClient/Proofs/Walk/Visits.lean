import DbClient.Proofs.Application.Walks
import DbClient.Proofs.Walk.Cursors

/-! Walks over rows as they are told: which rows a callback is called on, one after the other, and how a walk ends. A
callback can be made to record its calls, which changes nothing else. -/
namespace DbClient
open Application

/-- A call of a row callback: the resultset that it is lent, with its cursor at that time, and the answer. -/
structure Visit where
  resultset : Address
  cursor : Option Cursor
  answer : Except ClientError Bool

namespace Visit

/-- The callback has accepted the row. -/
def accepts (v : Visit) : Bool :=
  match v.answer with
  | .ok b => b
  | .error _ => false

/-- The number of rows that are accepted. -/
def accepted (vs : List Visit) : Nat := vs.countP accepts

@[simp] lemma accepted_append (us vs : List Visit) : accepted (us ++ vs) = accepted us + accepted vs :=
  List.countP_append

@[simp] lemma accepted_cons (h : Address) (c : Option Cursor) (b : Bool) (vs : List Visit) :
    accepted (⟨h, c, .ok b⟩ :: vs) = accepted vs + if b then 1 else 0 := List.countP_cons

end Visit

/-! ### How walks go -/

/-- A walk over the rows of a resultset behind its cursor: one visit for each row, in order, until there are no more
rows, or one is declined. It leaves the cursor behind the last row or on the declined one, or it ends with the error of
its last visit. -/
inductive Walked (h : Address) : Cursor → List Visit → Except ClientError Cursor → Prop
  | exhausted {rows : List (List Value)} {pos : Nat} (hend : rows.length ≤ pos) :
      Walked h ⟨rows, pos⟩ [] (.ok ⟨rows, rows.length + 1⟩)
  | accepted {rows : List (List Value)} {pos : Nat} {vs : List Visit} {r : Except ClientError Cursor}
      (hrow : pos < rows.length) (rest : Walked h ⟨rows, pos + 1⟩ vs r) :
      Walked h ⟨rows, pos⟩ (⟨h, some ⟨rows, pos + 1⟩, .ok true⟩ :: vs) r
  | declined {rows : List (List Value)} {pos : Nat} (hrow : pos < rows.length) :
      Walked h ⟨rows, pos⟩ [⟨h, some ⟨rows, pos + 1⟩, .ok false⟩] (.ok ⟨rows, pos + 1⟩)
  | failed {rows : List (List Value)} {pos : Nat} (hrow : pos < rows.length) (e : ClientError) :
      Walked h ⟨rows, pos⟩ [⟨h, some ⟨rows, pos + 1⟩, .error e⟩] (.error e)

/-- A walk over a chain: one resultset after the other, until there are no more or the walk over one of them fails. It
ends with the chain as it leaves it. -/
inductive Chained : List (Address × Cursor) → List Visit → Except ClientError (List (Address × Cursor)) → Prop
  | done : Chained [] [] (.ok [])
  | next {h : Address} {c c' : Cursor} {rest : List (Address × Cursor)} {vs us : List Visit}
      {r : Except ClientError (List (Address × Cursor))} (hwalk : Walked h c vs (.ok c')) (hrest : Chained rest us r) :
      Chained ((h, c) :: rest) (vs ++ us) (r.map fun chain => (h, c') :: chain)
  | stopped {h : Address} {c : Cursor} {rest : List (Address × Cursor)} {vs : List Visit} {e : ClientError}
      (hwalk : Walked h c vs (.error e)) : Chained ((h, c) :: rest) vs (.error e)

/-- A walk over rows that fails does so with the error of its last visit. -/
lemma Walked.failure {h : Address} {c : Cursor} {vs : List Visit} {r : Except ClientError Cursor}
    (hw : Walked h c vs r) {e : ClientError} (he : r = .error e) :
    ∃ us v, vs = us ++ [v] ∧ v.answer = .error e ∧ ∀ u ∈ us, ∃ b, u.answer = .ok b := by
  induction hw with
  | exhausted => cases he
  | declined => cases he
  | failed hrow e' =>
    obtain rfl := Except.error.inj he
    exact ⟨[], _, rfl, rfl, fun _ hu => absurd hu List.not_mem_nil⟩
  | accepted hrow _ ih =>
    obtain ⟨us, v, rfl, hv, hus⟩ := ih he
    refine ⟨_ :: us, v, rfl, hv, fun u hu => ?_⟩
    obtain rfl | hu := List.mem_cons.mp hu
    · exact ⟨true, rfl⟩
    · exact hus u hu

/-- In a walk over rows that does not fail, no visit does. -/
lemma Walked.answered {h : Address} {c c' : Cursor} {vs : List Visit} {r : Except ClientError Cursor}
    (hw : Walked h c vs r) (hr : r = .ok c') : ∀ v ∈ vs, ∃ b, v.answer = .ok b := by
  induction hw with
  | exhausted => exact fun _ hv => absurd hv List.not_mem_nil
  | declined => exact fun v hv => ⟨false, List.mem_singleton.mp hv ▸ rfl⟩
  | failed => cases hr
  | accepted hrow _ ih =>
    intro v hv
    obtain rfl | hv := List.mem_cons.mp hv
    · exact ⟨true, rfl⟩
    · exact ih hr v hv

/-- A walk over a chain that fails does so with the error of its last visit, the only one. -/
theorem Chained.failure {chain : List (Address × Cursor)} {vs : List Visit}
    {r : Except ClientError (List (Address × Cursor))} (hc : Chained chain vs r) {e : ClientError} (he : r = .error e) :
    ∃ us v, vs = us ++ [v] ∧ v.answer = .error e ∧ ∀ u ∈ us, ∃ b, u.answer = .ok b := by
  induction hc with
  | done => cases he
  | stopped hwalk =>
    obtain rfl := Except.error.inj he
    exact hwalk.failure rfl
  | @next _ _ _ _ us _ r hwalk _ ih =>
    cases r with
    | ok _ => cases he
    | error e' =>
      obtain ⟨us', v, rfl, hv, hus⟩ := ih he
      refine ⟨us ++ us', v, (List.append_assoc _ _ _).symm, hv, fun u hu => ?_⟩
      rcases List.mem_append.mp hu with hu | hu
      · exact hwalk.answered rfl u hu
      · exact hus u hu

variable {σ α β : Type}

/-! ### Records -/

namespace RowAct

/-- A part of a walk does the same with a record of visits beside the callback's state. -/
def Mirrors (a : RowAct σ α) (b : RowAct (σ × List Visit) α) : Prop :=
  ∀ s vs w, ∃ us, b.run ((s, vs), w) = ((a.run (s, w)).1, (((a.run (s, w)).2.1, vs ++ us), (a.run (s, w)).2.2))

namespace Mirrors

lemma pure (x : α) : Mirrors (Pure.pure x : RowAct σ α) (Pure.pure x) := fun _ _ _ => ⟨[], by simp; rfl⟩

lemma ofAct (a : Act α) : Mirrors (RowAct.ofAct a : RowAct σ α) (RowAct.ofAct a) := fun _ _ _ => ⟨[], by simp⟩

theorem bind {a : RowAct σ α} {b : RowAct (σ × List Visit) α} {f : α → RowAct σ β}
    {g : α → RowAct (σ × List Visit) β} (ha : Mirrors a b) (hf : ∀ x, Mirrors (f x) (g x)) :
    Mirrors (a >>= f) (b >>= g) := by
  intro s vs w
  obtain ⟨us, hb⟩ := ha s vs w
  rw [run_bind, run_bind, hb]
  rcases a.run (s, w) with ⟨e | x, s', w'⟩
  · exact ⟨us, rfl⟩
  · obtain ⟨us', hg⟩ := hf x s' (vs ++ us) w'
    exact ⟨us ++ us', by rw [← List.append_assoc]; exact hg⟩

lemma sweeping {sweep : World → World} {a : RowAct σ α} {b : RowAct (σ × List Visit) α} (ha : Mirrors a b) :
    Mirrors (RowAct.sweeping sweep a) (RowAct.sweeping sweep b) := by
  intro s vs w
  obtain ⟨us, hb⟩ := ha s vs w
  exact ⟨us, by rw [run_sweeping, run_sweeping, hb]⟩

/-- A part that begins by looking at the world. -/
lemma get {f : σ × World → RowAct σ β} {g : (σ × List Visit) × World → RowAct (σ × List Visit) β}
    (h : ∀ s vs w, Mirrors (f (s, w)) (g ((s, vs), w))) : Mirrors (MonadState.get >>= f) (MonadState.get >>= g) :=
  fun s vs w => h s vs w s vs w

lemma eq {a : RowAct σ α} {b : RowAct (σ × List Visit) α} (h : Mirrors a b) (s : σ) (vs : List Visit) (w : World) :
    a.run (s, w) =
      ((b.run ((s, vs), w)).1, ((b.run ((s, vs), w)).2.1.1, (b.run ((s, vs), w)).2.2)) := by
  obtain ⟨us, hb⟩ := h s vs w
  rw [hb]
  rfl

end Mirrors
end RowAct

namespace Resultset
open RowAct

/-- The callback with a record of its visits beside its own state. -/
def recorded (callback : Resultset → RowAct σ Bool) (rs : Resultset) : RowAct (σ × List Visit) Bool :=
  ExceptT.mk fun p =>
    let (r, s, w) := (callback rs).run (p.1.1, p.2)
    let native := rs.handle.native p.2
    (r, ((s, p.1.2 ++ [⟨native, p.2.library.rsets.get? native, r⟩]), w))

lemma mirrors_recorded (callback : Resultset → RowAct σ Bool) (rs : Resultset) :
    Mirrors (callback rs) (recorded callback rs) := fun _ _ _ => ⟨_, rfl⟩

variable {callback : Resultset → RowAct σ Bool} {callback' : Resultset → RowAct (σ × List Visit) Bool}

variable (callback) in
/-- A step onto a row, and the call of the callback on it. -/
lemma run_walk_row {rs : Resultset} {h : Address} {c : Cursor} {w w' : World} (hnext : rs.next.run w = (.ok true, w'))
    (hnative : rs.handle.native w' = h) (hcursor : w'.library.rsets.get? h = some c) (s : σ) (vs : List Visit)
    (fuel count : Nat) : (rs.walk (recorded callback) (fuel + 1) count).run ((s, vs), w) =
      match (callback rs).run (s, w') with
      | (.ok true, s, w) => (rs.walk (recorded callback) fuel (count + 1)).run ((s, vs ++ [⟨h, some c, .ok true⟩]), w)
      | (.ok false, s, w) => (.ok count, ((s, vs ++ [⟨h, some c, .ok false⟩]), w))
      | (.error e, s, w) => (.error e, ((s, vs ++ [⟨h, some c, .error e⟩]), w)) := by
  have hrecorded : (recorded callback rs).run ((s, vs), w') = (((callback rs).run (s, w')).1,
      ((((callback rs).run (s, w')).2.1, vs ++ [⟨h, some c, ((callback rs).run (s, w')).1⟩]),
        ((callback rs).run (s, w')).2.2)) := by
    rw [← hcursor, ← hnative]
    rfl
  rw [walk, run_bind, run_ofAct, hnext]
  dsimp only
  rw [if_pos rfl, run_bind, hrecorded]
  rcases (callback rs).run (s, w') with ⟨e | b, s', w''⟩
  · rfl
  · cases b <;> rfl

lemma mirrors_walk (hc : ∀ rs, Mirrors (callback rs) (callback' rs)) (rs : Resultset) (fuel count : Nat) :
    Mirrors (rs.walk callback fuel count) (rs.walk callback' fuel count) := by
  induction fuel generalizing count with
  | zero => exact .pure count
  | succ fuel ih =>
    refine (Mirrors.ofAct rs.next).bind fun moved => ?_
    cases moved with
    | false => exact .pure count
    | true =>
      refine (hc rs).bind fun accepted => ?_
      cases accepted with
      | false => exact .pure count
      | true => exact ih (count + 1)

lemma mirrors_forEachWithin (hc : ∀ rs, Mirrors (callback rs) (callback' rs)) (rows : Nat) (rs : Resultset) :
    Mirrors (rs.forEachWithin rows callback) (rs.forEachWithin rows callback') :=
  (mirrors_walk hc rs rows 0).bind fun _ => (Mirrors.ofAct _).bind fun _ => .pure _

lemma mirrors_forEach (hc : ∀ rs, Mirrors (callback rs) (callback' rs)) (rs : Resultset) :
    Mirrors (rs.forEach callback) (rs.forEach callback') :=
  Mirrors.get fun _ _ _ => mirrors_forEachWithin hc _ rs

end Resultset

namespace Statement
open RowAct Resultset
variable {callback : Resultset → RowAct σ Bool} {callback' : Resultset → RowAct (σ × List Visit) Bool}

/-- One resultset is walked over, the next one is taken, and the first is dropped whatever came of that. -/
lemma run_walkChain (s : Statement) (walk : Resultset → RowAct σ Nat) (fuel : Nat) (rs : Resultset) (total : Nat)
    (p : σ × World) : (s.walkChain walk (fuel + 1) (some rs) total).run p =
      match (walk rs).run p with
      | (.error e, q) => (.error e, (q.1, rs.drop q.2))
      | (.ok count, q) => match s.nextResultset.run q.2 with
        | (.error e, w) => (.error e, (q.1, rs.drop w))
        | (.ok next, w) => (s.walkChain walk fuel next (total + count)).run (q.1, rs.drop w) := by
  rw [walkChain, run_bind, run_sweeping, run_bind]
  rcases (walk rs).run p with ⟨e | count, q⟩
  · rfl
  · dsimp only
    rw [run_bind, run_ofAct]
    rcases s.nextResultset.run q.2 with ⟨e | next, w⟩ <;> rfl

lemma mirrors_walkChain {walk : Resultset → RowAct σ Nat} {walk' : Resultset → RowAct (σ × List Visit) Nat}
    (hwalk : ∀ rs, Mirrors (walk rs) (walk' rs)) (s : Statement) (fuel : Nat) (rs : Option Resultset) (total : Nat) :
    Mirrors (s.walkChain walk fuel rs total) (s.walkChain walk' fuel rs total) := by
  induction fuel generalizing rs total with
  | zero =>
    cases rs with
    | none => exact .pure total
    | some rs => exact .sweeping (.pure total)
  | succ fuel ih =>
    cases rs with
    | none => exact .pure total
    | some rs =>
      have hstep := (hwalk rs).bind fun count =>
        (Mirrors.ofAct s.nextResultset).bind fun next => Mirrors.pure (count, next)
      exact hstep.sweeping.bind fun p => ih p.2 _

/-- A walk over all resultsets does not depend on whether its visits are recorded, -/
theorem mirrors_fetch (s : Statement) (callback : Resultset → RowAct σ Bool) :
    Mirrors (s.fetch callback) (s.fetch (recorded callback)) := by
  refine (Mirrors.ofAct s.resultset).bind fun first => Mirrors.get fun p vs w => ?_
  exact mirrors_walkChain (mirrors_forEach (mirrors_recorded callback)) s _ first 0

/-- however long it may take. -/
theorem mirrors_fetchWithin (rows resultsets : Nat) (s : Statement) (callback : Resultset → RowAct σ Bool) :
    Mirrors (s.fetchWithin rows resultsets callback) (s.fetchWithin rows resultsets (recorded callback)) :=
  (Mirrors.ofAct s.resultset).bind fun first =>
    mirrors_walkChain (mirrors_forEachWithin (mirrors_recorded callback) rows) s _ first 0

end Statement
end DbClient
