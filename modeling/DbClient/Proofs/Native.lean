import DbClient.Proofs.Forest.Retire
import DbClient.Proofs.Quiet.World

/-! What the primitives of the native library do when they succeed: which handles come and go, and what
becomes of statements, as far as it is not quiet. -/
namespace DbClient
namespace Library
variable {α : Type} {l l' : Library} {op : Primitive} {h a stmt parent : Address} {kind : HandleKind}

/-- A primitive that gives something runs its body, after the call has been kept in memory. -/
lemma run_some {body : Library → Option α × Library} {x : α} (hr : run op h body l = (some x, l')) :
    l.failures.get? op = none ∧ body { l.called op h with error := none } = (some x, l') := by
  unfold run at hr
  dsimp only at hr
  split at hr
  · cases hr
  · rename_i hf
    exact ⟨hf, hr⟩

lemma withPrepared_some {body : NativeStatement → String → Library → Option α × Library} {x : α}
    (hr : withPrepared stmt body l = (some x, l')) : ∃ st sql mode, l.stmts.get? stmt = some st ∧
      st.prepared = some (sql, mode) ∧ body st sql l = (some x, l') := by
  unfold withPrepared at hr
  split at hr
  · cases hr
  · rename_i st hst
    split at hr
    · cases hr
    · rename_i sql mode hp
      exact ⟨st, sql, mode, hst, hp, hr⟩

/-! ### Creation and destruction -/

/-- The outcome of a creation. -/
structure Created (kind : HandleKind) (parent a : Address) (l l' : Library) : Prop where
  fresh : a.number = l.next + 0x10
  under : parent = .null ∨ l.isAlive parent = true
  next : l'.next = l.next + 0x10
  handles : l'.handles = l.handles.put a kind
  origins : l'.origins = l.origins.put a (.created parent)
  stmts : l'.stmts = if kind = .statement then l.stmts.put a .fresh else l.stmts
  rsets : l'.rsets = l.rsets
  destroyed : l'.destroyed = l.destroyed
  failures : l'.failures = l.failures
  calls : l'.calls = l.calls ++ [⟨some .create, parent, l.handles⟩]

theorem created (hc : create kind parent l = (some a, l')) : Created kind parent a l l' := by
  obtain ⟨-, hb⟩ := run_some hc
  split at hb
  · cases hb
  · rename_i hp
    have hparent : parent = .null ∨ l.isAlive parent = true := by
      rw [Bool.not_eq_true, Bool.and_eq_false_iff, Bool.not_eq_false', Bool.not_eq_false'] at hp
      refine hp.imp_left fun hn => ?_
      obtain ⟨number⟩ := parent
      simpa [Address.isNull, Address.null] using hn
    simp only [allocate, Prod.mk.injEq, Option.some.injEq] at hb
    obtain ⟨rfl, rfl⟩ := hb
    constructor
    case fresh => rfl
    case under => exact hparent
    all_goals split <;> rfl

/-- The creation of a handle writes no attribute. -/
lemma attrs_of_create (hc : create kind parent l = (some a, l')) : l'.attrs = l.attrs := by
  obtain ⟨-, hb⟩ := run_some hc
  split at hb
  · cases hb
  · obtain ⟨-, rfl⟩ := Prod.mk.inj hb
    split <;> rfl

/-- The resultsets that a statement lists. -/
def listed (l : Library) (stmt : Address) : List Address :=
  ((l.stmts.get? stmt).map NativeStatement.resultsets).getD []

lemma listed_of_get? {st : NativeStatement} (h : l.stmts.get? stmt = some st) : l.listed stmt = st.resultsets := by
  rw [listed, h]
  rfl

/-- The outcome of dropping the resultsets of a statement. -/
structure Dropped (stmt : Address) (l l' : Library) : Prop where
  next : l'.next = l.next
  handles : ∀ a, l'.handles.get? a = if a ∈ l.listed stmt then none else l.handles.get? a
  origins : l'.origins = l.origins
  stmts : ∀ a, l'.stmts.get? a = if stmt = a then
    (l.stmts.get? a).map fun st => { st with resultsets := [], cursor := none } else l.stmts.get? a
  rsets : ∀ a, l'.rsets.get? a = if a ∈ l.listed stmt then none else l.rsets.get? a
  destroyed : l'.destroyed = l.destroyed
  failures : l'.failures = l.failures
  calls : l'.calls = l.calls

lemma dropped (stmt : Address) (l : Library) : Dropped stmt l (dropResultsets stmt l) := by
  unfold dropResultsets
  split
  · rename_i hst
    have hlist : l.listed stmt = [] := by
      rw [listed, hst]
      rfl
    refine ⟨rfl, fun a => by simp [hlist], rfl, fun a => ?_, fun a => by simp [hlist], rfl, rfl, rfl⟩
    split
    · rename_i e
      rw [← e, hst]
      rfl
    · rfl
  · rename_i st hst
    rw [← listed_of_get? hst]
    refine ⟨rfl, fun a => Assoc.get?_erase_all _ _ a, rfl, fun a => ?_, fun a => Assoc.get?_erase_all _ _ a,
      rfl, rfl, rfl⟩
    change (l.stmts.put stmt _).get? a = _
    rw [Assoc.get?_put]
    split
    · rename_i e
      rw [← e, hst]
      rfl
    · rfl

/-- The outcome of an attempt to destroy a handle that fails. -/
structure Kept (h : Address) (l l' : Library) : Prop where
  next : l'.next = l.next
  handles : l'.handles = l.handles
  origins : l'.origins = l.origins
  stmts : l'.stmts = l.stmts
  rsets : l'.rsets = l.rsets
  destroyed : l'.destroyed = l.destroyed
  failures : l.failures.get? .destroy = none → l'.failures.get? .destroy = none
  calls : l'.calls = l.calls ++ [⟨some .destroy, h, l.handles⟩]

/-- The outcome of a destruction. -/
structure Destroyed (kind : HandleKind) (h : Address) (l l' : Library) : Prop where
  next : l'.next = l.next
  handles : ∀ a, l'.handles.get? a = if a = h ∨ a ∈ l.listed h then none else l.handles.get? a
  origins : l'.origins = l.origins
  stmts : l'.stmts.get? h = none ∧ ∀ a, a ≠ h → l'.stmts.get? a = l.stmts.get? a
  rsets : ∀ a, l'.rsets.get? a = if a ∈ l.listed h then none else l.rsets.get? a
  destroyed : l'.destroyed = l.destroyed ++ [(kind, h)]
  failures : l'.failures = l.failures
  calls : l'.calls = l.calls ++ [⟨some .destroy, h, l.handles⟩]

/-- A handle that is let go is destroyed if it is alive and destruction is not made to fail. -/
theorem letGo_spec (kind : HandleKind) (h : Address) (l : Library) :
    ((l.failures.get? .destroy).isSome ∨ l.isAlive h = false) ∧ Kept h l (l.letGo kind h) ∨
      l.isAlive h = true ∧ Destroyed kind h l (l.letGo kind h) := by
  unfold letGo destroy run
  dsimp only
  cases hf : (l.called (some .destroy) h).failures.get? .destroy with
  | some e =>
    refine .inl ⟨.inl (by rw [show l.failures.get? .destroy = some e from hf]; rfl), ?_⟩
    refine ⟨rfl, rfl, rfl, rfl, rfl, rfl, fun hn => ?_, rfl⟩
    rw [show l.failures.get? .destroy = some e from hf] at hn
    cases hn
  | none =>
    dsimp only
    by_cases ha : l.isAlive h = true
    · refine .inr ⟨ha, ?_⟩
      have hn : (!isAlive { l.called (some .destroy) h with error := none } h) = false := by
        rw [show isAlive { l.called (some .destroy) h with error := none } h = l.isAlive h from rfl, ha]
        rfl
      simp only [hn, Bool.false_eq_true, if_false]
      have hd := dropped h { { l.called (some .destroy) h with error := none } with
        handles := l.handles.erase h }
      refine ⟨hd.next, fun a => ?_, hd.origins, ⟨by simp, fun a hne => ?_⟩,
        hd.rsets, ?_, hd.failures, hd.calls⟩
      · apply (hd.handles a).trans
        change (if a ∈ l.listed h then none else (l.handles.erase h).get? a) = _
        rw [Assoc.get?_erase]
        by_cases e : h = a
        · simp [e]
        · simp [e, Ne.symm e]
      · change ((dropResultsets h _).stmts.erase h).get? a = _
        rw [Assoc.get?_erase, if_neg (Ne.symm hne)]
        exact (hd.stmts a).trans (if_neg (Ne.symm hne))
      · exact congrArg (· ++ [(kind, h)]) hd.destroyed
    · refine .inl ⟨.inr (Bool.eq_false_iff.mpr ha), ?_⟩
      have hn : (!isAlive { l.called (some .destroy) h with error := none } h) = true := by
        rw [show isAlive { l.called (some .destroy) h with error := none } h = l.isAlive h from rfl,
          Bool.eq_false_iff.mpr ha]
        rfl
      simp only [hn, if_true]
      exact ⟨rfl, rfl, rfl, rfl, rfl, rfl, id, rfl⟩

/-! ### Statements -/

/-- The outcome of a preparation. -/
structure Prepared (stmt : Address) (sql : String) (mode : PrepareMode) (l l' : Library) : Prop where
  next : l'.next = l.next
  handles : ∀ a, l'.handles.get? a = if a ∈ l.listed stmt then none else l.handles.get? a
  origins : l'.origins = l.origins
  known : (l.stmts.get? stmt).isSome
  stmts : ∀ a, l'.stmts.get? a =
    if stmt = a then some ⟨some (sql, mode), ∅, [], [], none⟩ else l.stmts.get? a
  rsets : ∀ a, l'.rsets.get? a = if a ∈ l.listed stmt then none else l.rsets.get? a
  destroyed : l'.destroyed = l.destroyed
  failures : l'.failures = l.failures
  calls : l'.calls = l.calls ++ [⟨some .prepare, stmt, l.handles⟩]

theorem prepared {sql : String} {mode : PrepareMode} (hp : prepare stmt sql mode l = (some (), l')) :
    Prepared stmt sql mode l l' := by
  obtain ⟨-, hb⟩ := run_some hp
  split at hb
  · cases hb
  · rename_i hk
    split at hb
    · cases hb
    · have hknown : (l.stmts.get? stmt).isSome := by
        rw [Bool.not_eq_true, Bool.not_eq_false'] at hk
        exact hk
      have hd := dropped stmt { l.called (some .prepare) stmt with error := none }
      simp only [Prod.mk.injEq, true_and] at hb
      subst hb
      refine ⟨hd.next, hd.handles, hd.origins, hknown, fun a => ?_, hd.rsets, hd.destroyed, hd.failures,
        hd.calls⟩
      change ((dropResultsets stmt _).stmts.modify stmt _).get? a = _
      rw [Assoc.get?_modify]
      split
      · rename_i e
        obtain ⟨st, hst⟩ := Option.isSome_iff_exists.mp hknown
        rw [hd.stmts, if_pos e, ← e, show ({ l.called (some .prepare) stmt with error := none } :
          Library).stmts.get? stmt = some st from hst]
        rfl
      · rename_i e
        exact (hd.stmts a).trans (if_neg e)

/-- The outcome of binding a buffer. -/
structure BoundTo (stmt : Address) (d : BindDesc) (l l' : Library) : Prop where
  next : l'.next = l.next
  handles : l'.handles = l.handles
  origins : l'.origins = l.origins
  stmts : ∃ st sql mode, l.stmts.get? stmt = some st ∧ st.prepared = some (sql, mode) ∧ ∀ a,
    l'.stmts.get? a = if stmt = a then some { st with binds := st.binds.put d.name (.ofDesc d) }
      else l.stmts.get? a
  rsets : l'.rsets = l.rsets
  destroyed : l'.destroyed = l.destroyed
  failures : l'.failures = l.failures
  calls : l'.calls = l.calls ++ [⟨some .bind, stmt, l.handles⟩]

theorem boundTo {d : BindDesc} (hb : bind stmt d l = (some (), l')) : BoundTo stmt d l l' := by
  obtain ⟨-, hb⟩ := run_some hb
  obtain ⟨st, sql, mode, hst, hp, hb⟩ := withPrepared_some hb
  simp only [Prod.mk.injEq, true_and] at hb
  subst hb
  exact ⟨rfl, rfl, rfl, ⟨st, sql, mode, hst, hp, fun a => Assoc.get?_put _ _ _ _⟩, rfl, rfl, rfl, rfl⟩

/-! ### Execution -/

/-- The outcome of opening resultsets. -/
structure Opened (stmt : Address) (opened : List Address) (l l' : Library) : Prop where
  nodup : opened.Nodup
  next : l.next ≤ l'.next
  fresh : ∀ a ∈ opened, l.next < a.number ∧ a.number ≤ l'.next
  handles : ∀ a, l'.handles.get? a = if a ∈ opened then some .resultset else l.handles.get? a
  origins : ∀ a, l'.origins.get? a = if a ∈ opened then some (.opened stmt) else l.origins.get? a
  stmts : l'.stmts = l.stmts
  rsets : ∀ a, (l'.rsets.get? a).isSome = if a ∈ opened then true else (l.rsets.get? a).isSome
  destroyed : l'.destroyed = l.destroyed
  failures : l'.failures = l.failures
  calls : l'.calls = l.calls

lemma ite_mem_cons {β : Type} (a b : Address) (as : List Address) (x y : β) :
    (if a ∈ as then x else if b = a then x else y) = if a ∈ b :: as then x else y := by
  by_cases ha : a ∈ as
  · simp [ha]
  · by_cases hb : b = a
    · simp [hb]
    · simp [ha, hb, Ne.symm hb]

lemma opened (stmt : Address) (rows : List (List (List Value))) (l : Library) :
    Opened stmt (openResultsets stmt rows l).1 l (openResultsets stmt rows l).2 := by
  induction rows generalizing l with
  | nil => exact ⟨List.nodup_nil, Nat.le_refl _, by simp [openResultsets], by simp [openResultsets],
      by simp [openResultsets], rfl, by simp [openResultsets], rfl, rfl, rfl⟩
  | cons first rest ih =>
    have h := ih { (l.allocate .resultset (.opened stmt)).2 with
      rsets := (l.allocate .resultset (.opened stmt)).2.rsets.put ⟨l.next + 0x10⟩ ⟨first, 0⟩ }
    have hnext : l.next + 0x10 ≤ _ := h.next
    have hnew : (⟨l.next + 0x10⟩ : Address) ∉ (openResultsets stmt rest _).1 := fun hm =>
      absurd (h.fresh _ hm).1 (Nat.lt_irrefl _)
    refine ⟨List.nodup_cons.mpr ⟨hnew, h.nodup⟩, by exact Nat.le_trans (Nat.le_add_right _ _) hnext, fun a ha => ?_,
      fun a => ?_, fun a => ?_, h.stmts, fun a => ?_, h.destroyed, h.failures, h.calls⟩
    · rcases List.mem_cons.mp ha with rfl | ha
      · exact ⟨Nat.lt_add_of_pos_right (by decide), hnext⟩
      · obtain ⟨hlt, hle⟩ := h.fresh a ha
        exact ⟨Nat.lt_of_le_of_lt (Nat.le_add_right _ _) hlt, hle⟩
    · refine (h.handles a).trans (Eq.trans ?_ (ite_mem_cons a ⟨l.next + 0x10⟩ _ _ _))
      simp only [allocate, Assoc.get?_put]
    · refine (h.origins a).trans (Eq.trans ?_ (ite_mem_cons a ⟨l.next + 0x10⟩ _ _ _))
      simp only [allocate, Assoc.get?_put]
    · refine (h.rsets a).trans (Eq.trans ?_ (ite_mem_cons a ⟨l.next + 0x10⟩ _ _ _))
      simp only [allocate, Assoc.get?_put, apply_ite Option.isSome, Option.isSome_some]

end Library

namespace HookState
variable {s : HookState}

/-- No variable lies in a buffer. -/
def Avoids (binds : Assoc String Bound) (buffer : Nat) : Prop :=
  ∀ name b, binds.get? name = some b → b.buffer ≠ buffer

lemma Avoids.congr {binds binds' : Assoc String Bound} {buffer : Nat} (hf : frames binds' = frames binds)
    (h : Avoids binds buffer) : Avoids binds' buffer := by
  intro name b hb
  have hm : ((frames binds).get? name) = some b.frame := by rw [← hf, get?_frames, hb, Option.map_some]
  obtain ⟨c, hc, he⟩ := Option.map_eq_some_iff.mp (get?_frames binds name ▸ hm)
  rw [show b.buffer = c.buffer from (congrArg Bound.buffer he).symm]
  exact h name c hc

/-- What a hook can do to variables and buffers: it changes actual lengths, and bytes in place in the buffers
of the variables. -/
structure Framed (s s' : HookState) : Prop where
  binds : frames s'.binds = frames s.binds
  memory : s.memory.Steady s'.memory
  others : ∀ buffer, Avoids s.binds buffer → s'.memory.get? buffer = s.memory.get? buffer

lemma Framed.refl (s : HookState) : Framed s s := ⟨rfl, .refl _, fun _ _ => rfl⟩

lemma Framed.trans {s' s'' : HookState} (h : Framed s s') (h' : Framed s' s'') : Framed s s'' :=
  ⟨h'.binds.trans h.binds, h.memory.trans h'.memory, fun buffer hb =>
    (h'.others buffer (hb.congr h.binds)).trans (h.others buffer hb)⟩

lemma get?_store {b : Bound} {name : String} {buffer : Nat} (hb : s.binds.get? name = some b)
    (ha : Avoids s.binds buffer) (pos : Nat) (bytes : List UInt8) :
    (b.store pos bytes s.memory).get? buffer = s.memory.get? buffer := by
  rw [Bound.store, Table.get?_modify, if_neg (ha name b hb)]

lemma framed_write (s : HookState) (name : String) (pos : Nat) (d : Datum) : Framed s (s.write name pos d).2 := by
  unfold write
  split
  · rename_i hb _
    dsimp only
    split
    · exact ⟨rfl, .write _ _ _ _, fun _ ha => get?_store hb ha _ _⟩
    · exact .refl s
  · exact .refl s

lemma framed_writeBytes (s : HookState) (name : String) (pos : Nat) (bytes : List UInt8) :
    Framed s (s.writeBytes name pos bytes).2 := by
  unfold writeBytes
  split
  · rename_i hb _
    exact ⟨frames_put hb (Bound.frame_setSize _ _ _), .write _ _ _ _, fun _ ha => get?_store hb ha _ _⟩
  · exact .refl s

lemma framed_forPositions {f : HookState → Nat → Bool × HookState} (hf : ∀ s pos, Framed s (f s pos).2)
    (positions : List Nat) (s : HookState) : Framed s (forPositions f positions s).2 := by
  induction positions generalizing s with
  | nil => exact .refl s
  | cons pos rest ih => exact (hf s pos).trans (ih _)

lemma framed_perform (sql : String) (iters : Nat) (s : HookState) (a : HookAction) :
    Framed s (s.perform sql iters a).2 := by
  cases a with
  | write name pos d => exact s.framed_write name pos d
  | writeBytes name pos bytes => exact s.framed_writeBytes name pos bytes
  | append name suffix => exact framed_forPositions (fun s pos => s.framed_writeBytes name pos _) _ s
  | sequence name start => exact framed_forPositions (fun s pos => s.framed_write name pos _) _ s
  | _ => exact .refl s

lemma framed_performAll (sql : String) (iters : Nat) (as : List HookAction) (s : HookState) :
    Framed s (performAll sql iters as s).2 := by
  induction as generalizing s with
  | nil => exact .refl s
  | cons a rest ih => exact (framed_perform sql iters s a).trans (ih _)

end HookState

namespace Library
variable {l l' : Library} {stmt : Address}

/-- The outcome of an execution. -/
structure Executed (stmt : Address) (memory memory' : Memory) (opened : List Address) (l l' : Library) : Prop
    where
  nodup : opened.Nodup
  next : l.next ≤ l'.next
  fresh : ∀ a ∈ opened, l.next < a.number ∧ a.number ≤ l'.next
  handles : ∀ a, l'.handles.get? a =
    if a ∈ opened then some .resultset else if a ∈ l.listed stmt then none else l.handles.get? a
  origins : ∀ a, l'.origins.get? a = if a ∈ opened then some (.opened stmt) else l.origins.get? a
  stmts : ∃ st sql mode binds, l.stmts.get? stmt = some st ∧ st.prepared = some (sql, mode) ∧
    frames binds = frames st.binds ∧ ∀ a, l'.stmts.get? a =
      if stmt = a then some { st with binds := binds, resultsets := opened, cursor := none }
      else l.stmts.get? a
  rsets : ∀ a, (l'.rsets.get? a).isSome =
    if a ∈ opened then true else if a ∈ l.listed stmt then false else (l.rsets.get? a).isSome
  destroyed : l'.destroyed = l.destroyed
  failures : l'.failures = l.failures
  calls : l'.calls = l.calls ++ [⟨some .execute, stmt, l.handles⟩]
  steady : memory.Steady memory'
  others : ∀ buffer, (∀ name b, l.bound? stmt name = some b → b.buffer ≠ buffer) →
    memory'.get? buffer = memory.get? buffer

theorem executed {iters : Nat} {memory memory' : Memory} {results : List HookResult}
    (he : execute stmt iters memory l = (some (results, memory'), l')) :
    ∃ opened, Executed stmt memory memory' opened l l' := by
  obtain ⟨-, hb⟩ := run_some he
  obtain ⟨st, sql, mode, hst, hp, hb⟩ := withPrepared_some hb
  have hd := dropped stmt { l.called (some .execute) stmt with error := none }
  generalize dropResultsets stmt { l.called (some .execute) stmt with error := none } = l1 at hd hb
  have hst1 : l1.stmts.get? stmt = some { st with resultsets := [], cursor := none } := by
    rw [hd.stmts, if_pos rfl, hst]
    rfl
  have hh := HookState.framed_performAll sql iters ((l1.hooks.get? sql).getD []) ⟨st.binds, memory⟩
  simp only [hst1, Option.map_some, Option.getD_some] at hb
  generalize HookState.performAll sql iters ((l1.hooks.get? sql).getD []) ⟨st.binds, memory⟩ = hook at hh hb
  have ho := opened stmt ((l1.scripts.get? sql).getD []) l1
  generalize openResultsets stmt ((l1.scripts.get? sql).getD []) l1 = made at ho hb
  obtain ⟨results', s⟩ := hook
  obtain ⟨opened, l2⟩ := made
  simp only [Prod.mk.injEq, Option.some.injEq] at hb
  obtain ⟨⟨rfl, rfl⟩, rfl⟩ := hb
  refine ⟨opened, ?_⟩
  exact {
    nodup := ho.nodup
    next := hd.next ▸ ho.next
    fresh := fun a ha => hd.next ▸ ho.fresh a ha
    handles := fun a => by
      rw [ho.handles, hd.handles]
      rfl
    origins := fun a => by
      rw [ho.origins, hd.origins]
      rfl
    stmts := ⟨st, sql, mode, s.binds, hst, hp, hh.binds, fun a => by
      change (l2.stmts.modify stmt _).get? a = _
      rw [Assoc.get?_modify, ho.stmts]
      split
      · rename_i e
        rw [← e, hst1]
        rfl
      · rename_i e
        exact (hd.stmts a).trans (if_neg e)⟩
    rsets := fun a => by
      rw [ho.rsets, hd.rsets]
      split
      · rfl
      · change Option.isSome (if a ∈ l.listed stmt then none else l.rsets.get? a) = _
        split <;> rfl
    destroyed := ho.destroyed.trans hd.destroyed
    failures := ho.failures.trans hd.failures
    calls := ho.calls.trans hd.calls
    steady := hh.memory
    others := fun buffer hb => hh.others buffer fun name b hs => hb name b (by
      rw [bound?, show l.stmts.get? stmt = some st from hst]
      exact hs) }

end Library
end DbClient
