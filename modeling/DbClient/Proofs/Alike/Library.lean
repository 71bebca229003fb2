import DbClient.Proofs.Bindings.Tables
import DbClient.Proofs.Transfer.Native

/-! Native libraries that differ in data only. What a primitive gives and leaves behind does not depend on the actual
lengths of elements, on what executions have found in them, or on the calls that were made before. -/
namespace DbClient

/-- A native statement without the actual lengths of the elements of its variables. -/
def NativeStatement.blind (st : NativeStatement) : NativeStatement := { st with binds := frames st.binds }

lemma NativeStatement.blind_eq_blind {st st' : NativeStatement} : st'.blind = st.blind ↔
    st'.prepared = st.prepared ∧ frames st'.binds = frames st.binds ∧ st'.registered = st.registered ∧
      st'.resultsets = st.resultsets ∧ st'.cursor = st.cursor := by
  simp [blind]

namespace HookState

/-! ### Hooks -/

lemma next_write (s : HookState) (name : String) (pos : Nat) (d : Datum) :
    (s.write name pos d).2.memory.next = s.memory.next := by
  unfold write
  split
  · dsimp only
    split <;> rfl
  · rfl

lemma next_writeBytes (s : HookState) (name : String) (pos : Nat) (bytes : List UInt8) :
    (s.writeBytes name pos bytes).2.memory.next = s.memory.next := by
  unfold writeBytes
  split <;> rfl

lemma next_forPositions {f : HookState → Nat → Bool × HookState}
    (hf : ∀ s pos, (f s pos).2.memory.next = s.memory.next) (positions : List Nat) (s : HookState) :
    (forPositions f positions s).2.memory.next = s.memory.next := by
  induction positions generalizing s with
  | nil => rfl
  | cons pos rest ih => exact (ih _).trans (hf s pos)

lemma next_perform (sql : String) (iters : Nat) (s : HookState) (a : HookAction) :
    (s.perform sql iters a).2.memory.next = s.memory.next := by
  cases a with
  | write name pos d => exact s.next_write name pos d
  | writeBytes name pos bytes => exact s.next_writeBytes name pos bytes
  | append name suffix => exact next_forPositions (fun s pos => s.next_writeBytes name pos _) _ s
  | sequence name start => exact next_forPositions (fun s pos => s.next_write name pos _) _ s
  | _ => rfl

/-- A hook makes no buffer. -/
lemma next_performAll (sql : String) (iters : Nat) (as : List HookAction) (s : HookState) :
    (performAll sql iters as s).2.memory.next = s.memory.next := by
  induction as generalizing s with
  | nil => rfl
  | cons a rest ih => exact (ih _).trans (next_perform sql iters s a)

end HookState

namespace Library
open NativeStatement
variable {α β : Type} {l l' l'' : Library} {stmt a : Address}

/-- Two libraries that differ in data only. -/
structure Alike (l l' : Library) : Prop where
  next : l'.next = l.next
  handles : l'.handles = l.handles
  origins : l'.origins = l.origins
  destroyed : l'.destroyed = l.destroyed
  attrs : l'.attrs = l.attrs
  stmts : ∀ a, (l'.stmts.get? a).map blind = (l.stmts.get? a).map blind
  rsets : l'.rsets = l.rsets
  scripts : l'.scripts = l.scripts
  hooks : l'.hooks = l.hooks
  failures : l'.failures = l.failures
  error : l'.error = l.error
  breaks : l'.breaks = l.breaks
  serverVersion : l'.serverVersion = l.serverVersion

/-- A primitive that does not see data: from libraries that differ in data only it gives the same, and it leaves
libraries that differ in data only. -/
def Blind (f : Library → α × Library) : Prop := ∀ ⦃l l'⦄, l.Alike l' → (f l').1 = (f l).1 ∧ (f l).2.Alike (f l').2

namespace Alike

lemma refl (l : Library) : Alike l l := ⟨rfl, rfl, rfl, rfl, rfl, fun _ => rfl, rfl, rfl, rfl, rfl, rfl, rfl, rfl⟩

lemma symm (h : l.Alike l') : l'.Alike l :=
  ⟨h.next.symm, h.handles.symm, h.origins.symm, h.destroyed.symm, h.attrs.symm, fun a => (h.stmts a).symm,
    h.rsets.symm, h.scripts.symm, h.hooks.symm, h.failures.symm, h.error.symm, h.breaks.symm, h.serverVersion.symm⟩

lemma trans (h : l.Alike l') (h' : l'.Alike l'') : l.Alike l'' :=
  ⟨h'.next.trans h.next, h'.handles.trans h.handles, h'.origins.trans h.origins, h'.destroyed.trans h.destroyed,
    h'.attrs.trans h.attrs, fun a => (h'.stmts a).trans (h.stmts a), h'.rsets.trans h.rsets,
    h'.scripts.trans h.scripts, h'.hooks.trans h.hooks, h'.failures.trans h.failures, h'.error.trans h.error,
    h'.breaks.trans h.breaks, h'.serverVersion.trans h.serverVersion⟩

/-- Both libraries know a statement, which differs in actual lengths only, or neither does. -/
lemma cases (h : l.Alike l') (a : Address) : (l.stmts.get? a = none ∧ l'.stmts.get? a = none) ∨
    ∃ st st', l.stmts.get? a = some st ∧ l'.stmts.get? a = some st' ∧ st'.blind = st.blind := by
  have ha := h.stmts a
  cases hl : l.stmts.get? a with
  | none =>
    rw [hl] at ha
    exact .inl ⟨rfl, Option.map_eq_none_iff.mp ha⟩
  | some st =>
    rw [hl] at ha
    obtain ⟨st', hst', hb⟩ := Option.map_eq_some_iff.mp ha
    exact .inr ⟨st, st', rfl, hst', hb⟩

lemma isAlive (h : l.Alike l') (a : Address) : l'.isAlive a = l.isAlive a := by
  rw [Library.isAlive, h.handles, ← Library.isAlive]

/-- Statements that are stored differ in actual lengths only. -/
lemma put {st st' : NativeStatement} (h : l.Alike l') (hb : st'.blind = st.blind) (a : Address) :
    Alike { l with stmts := l.stmts.put a st } { l' with stmts := l'.stmts.put a st' } := by
  refine { h with stmts := fun b => ?_ }
  simp only [Assoc.get?_put]
  split
  · exact congrArg some hb
  · exact h.stmts b

/-- A statement is changed in both libraries, in the same way but for actual lengths. -/
lemma modify {f f' : NativeStatement → NativeStatement} (h : l.Alike l')
    (hf : ∀ st st' : NativeStatement, st'.blind = st.blind → (f' st').blind = (f st).blind) (a : Address) :
    Alike { l with stmts := l.stmts.modify a f } { l' with stmts := l'.stmts.modify a f' } := by
  refine { h with stmts := fun b => ?_ }
  simp only [Assoc.get?_modify]
  obtain ⟨hn, hn'⟩ | ⟨st, st', hst, hst', hb⟩ := h.cases b
  · simp [hn, hn']
  · rw [hst, hst']
    split
    · exact congrArg some (hf st st' hb)
    · exact congrArg some hb

end Alike

/-- Two libraries that differ in data and in the last error only. -/
def Nearly (l l' : Library) : Prop := Alike { l with error := none } { l' with error := none }

lemma Alike.nearly (h : l.Alike l') : l.Nearly l' := { h with error := rfl }

lemma Nearly.refl (l : Library) : l.Nearly l := (Alike.refl l).nearly

lemma Nearly.trans (h : l.Nearly l') (h' : l'.Nearly l'') : l.Nearly l'' := Alike.trans h h'

lemma Nearly.alike (h : l.Nearly l') (error : l'.error = l.error) : l.Alike l' := { h with error := error }

/-- Whether an injected failure fires is no question of data, nor of the last error: in both libraries one does, or the
bodies of the primitives run. -/
lemma Nearly.run (h : l.Nearly l') (op : Primitive) (a : Address) (body body' : Library → Option α × Library) :
    (∃ v v', v.Alike v' ∧ Library.run op a body l = (none, v) ∧ Library.run op a body' l' = (none, v')) ∨
      ∃ v v', v.Alike v' ∧ Library.run op a body l = body v ∧ Library.run op a body' l' = body' v' := by
  have hfailures : l'.failures = l.failures := h.failures
  unfold Library.run
  dsimp only [called]
  rw [hfailures]
  cases hf : l.failures.get? op with
  | some e =>
    refine .inl ⟨_, _, ?_, rfl, rfl⟩
    exact { h with failures := rfl, error := rfl }
  | none =>
    refine .inr ⟨_, _, ?_, rfl, rfl⟩
    exact { h with failures := rfl, error := rfl }

namespace Blind

lemma fail (e : NativeError) : Blind (fail e : Library → Option α × Library) :=
  fun _ _ h => ⟨rfl, { h with error := rfl }⟩

/-- A primitive does not see data when its body does not. -/
lemma run {op : Primitive} {h : Address} {body : Library → Option α × Library} (hb : Blind body) :
    Blind (Library.run op h body) := by
  intro l l' hl
  obtain ⟨v, v', hv, hr, hr'⟩ | ⟨v, v', hv, hr, hr'⟩ := hl.nearly.run op h body body
  · rw [hr, hr']
    exact ⟨rfl, hv⟩
  · rw [hr, hr']
    exact hb hv

lemma withPrepared {body : NativeStatement → String → Library → Option α × Library}
    (hb : ∀ st st' sql l l', st'.blind = st.blind → l.Alike l' →
      (body st' sql l').1 = (body st sql l).1 ∧ (body st sql l).2.Alike (body st' sql l').2) :
    Blind (Library.withPrepared stmt body) := by
  intro l l' hl
  unfold Library.withPrepared
  obtain ⟨hn, hn'⟩ | ⟨st, st', hst, hst', hblind⟩ := hl.cases stmt
  · rw [hn, hn']
    exact fail _ hl
  · rw [hst, hst']
    dsimp only
    rw [(blind_eq_blind.mp hblind).1]
    split
    · exact fail _ hl
    · exact hb st st' _ l l' hblind hl

end Blind

/-! ### Handles and attributes -/

lemma blind_takeError : Blind takeError := fun _ _ h => ⟨h.error, { h with error := rfl }⟩

lemma blind_lastError : Blind lastError := fun l l' h =>
  ⟨by rw [lastError, lastError, h.error], { h with error := rfl }⟩

lemma blind_allocate (kind : HandleKind) (origin : Origin) : Blind (allocate kind origin) := fun l l' h =>
  ⟨by rw [allocate, allocate, h.next],
    { h with
      next := congrArg (· + 0x10) h.next
      handles := by rw [allocate, allocate, h.next, h.handles]
      origins := by rw [allocate, allocate, h.next, h.origins] }⟩

lemma Alike.dropResultsets (h : l.Alike l') (stmt : Address) :
    (l.dropResultsets stmt).Alike (l'.dropResultsets stmt) := by
  unfold Library.dropResultsets
  obtain ⟨hn, hn'⟩ | ⟨st, st', hst, hst', hb⟩ := h.cases stmt
  · rw [hn, hn']
    exact h
  · rw [hst, hst']
    dsimp only
    rw [(blind_eq_blind.mp hb).2.2.2.1, h.rsets, h.handles]
    have hblind : NativeStatement.blind { st' with resultsets := [], cursor := none } =
        NativeStatement.blind { st with resultsets := [], cursor := none } :=
      congrArg (fun s : NativeStatement => { s with resultsets := [], cursor := none }) hb
    exact { h.put hblind stmt with handles := rfl, rsets := rfl }

lemma blind_create (kind : HandleKind) (parent : Address) : Blind (create kind parent) := by
  refine Blind.run fun l l' h => ?_
  dsimp only
  rw [h.isAlive]
  split
  · exact Blind.fail _ h
  · obtain ⟨h1, h2⟩ := blind_allocate kind (.created parent) h
    rw [h1]
    refine ⟨rfl, ?_⟩
    split
    · exact h2.put rfl _
    · exact h2

lemma blind_destroy (kind : HandleKind) (h : Address) : Blind (destroy kind h) := by
  refine Blind.run fun l l' hl => ?_
  dsimp only
  rw [hl.isAlive]
  split
  · exact Blind.fail _ hl
  · have hgone : Alike { l with handles := l.handles.erase h } { l' with handles := l'.handles.erase h } :=
      { hl with handles := by rw [hl.handles] }
    have hdrop := hgone.dropResultsets h
    refine ⟨rfl, { hdrop with
      attrs := by rw [hdrop.attrs], destroyed := by rw [hdrop.destroyed], stmts := fun a => ?_ }⟩
    simp only [Assoc.get?_erase]
    split
    · rfl
    · exact hdrop.stmts a

lemma blind_getAttr (h : Address) (attr : Attr) : Blind (getAttr h attr) := by
  refine Blind.run fun l l' hl => ?_
  dsimp only [attr?, banner]
  rw [hl.isAlive, hl.serverVersion, hl.attrs]
  split
  · exact Blind.fail _ hl
  · split
    · exact ⟨rfl, hl⟩
    · split
      · exact ⟨rfl, hl⟩
      · exact Blind.fail _ hl

lemma blind_setAttr (h : Address) (attr : Attr) (v : Value) : Blind (setAttr h attr v) := by
  refine Blind.run fun l l' hl => ?_
  rw [hl.isAlive]
  split
  · exact Blind.fail _ hl
  · exact ⟨rfl, { hl with attrs := by rw [hl.attrs] }⟩

lemma blind_breakCall (conn : Address) : Blind (breakCall conn) := by
  refine Blind.run fun l l' h => ?_
  rw [h.isAlive]
  split
  · exact Blind.fail _ h
  · exact ⟨rfl, { h with breaks := congrArg (· + 1) h.breaks }⟩

/-! ### Statements -/

lemma blind_prepare (stmt : Address) (sql : String) (mode : PrepareMode) : Blind (prepare stmt sql mode) := by
  refine Blind.run fun l l' h => ?_
  have hcontains : l'.stmts.contains stmt = l.stmts.contains stmt := by
    have hs := congrArg Option.isSome (h.stmts stmt)
    rwa [Option.isSome_map, Option.isSome_map] at hs
  dsimp only
  rw [hcontains]
  split
  · exact Blind.fail _ h
  · split
    · exact Blind.fail _ h
    · have hdrop := h.dropResultsets stmt
      refine ⟨rfl, { hdrop.modify (fun st st' hb => ?_) stmt with attrs := by rw [hdrop.attrs] }⟩
      exact congrArg (fun s : NativeStatement =>
        { s with prepared := some (sql, mode), binds := ∅, registered := [] }) hb

lemma blind_bind (stmt : Address) (d : BindDesc) : Blind (bind stmt d) := by
  refine Blind.run (Blind.withPrepared fun st st' _ l l' hb h => ⟨rfl, h.put ?_ stmt⟩)
  obtain ⟨h1, h2, h3, h4, h5⟩ := blind_eq_blind.mp hb
  exact blind_eq_blind.mpr ⟨h1, by rw [frames_of_put, frames_of_put, h2], h3, h4, h5⟩

lemma blind_register (stmt : Address) (name : String) (ty : ValueType) (maxLength : Nat) :
    Blind (register stmt name ty maxLength) := by
  refine Blind.run (Blind.withPrepared fun st st' _ l l' hb h => ⟨rfl, h.put ?_ stmt⟩)
  obtain ⟨h1, h2, h3, h4, h5⟩ := blind_eq_blind.mp hb
  exact blind_eq_blind.mpr ⟨h1, h2, by rw [h3], h4, h5⟩

lemma blind_openResultsets (stmt : Address) (rows : List (List (List Value))) : Blind (openResultsets stmt rows) := by
  induction rows with
  | nil => exact fun _ _ h => ⟨rfl, h⟩
  | cons first rest ih =>
    intro l l' h
    obtain ⟨h1, h2⟩ := blind_allocate .resultset (.opened stmt) h
    unfold openResultsets
    generalize allocate .resultset (.opened stmt) l = p at h1 h2
    generalize allocate .resultset (.opened stmt) l' = p' at h1 h2
    obtain ⟨r, v⟩ := p
    obtain ⟨r', v'⟩ := p'
    obtain rfl : r' = r := h1
    have hput : Alike { v with rsets := v.rsets.put r' ⟨first, 0⟩ } { v' with rsets := v'.rsets.put r' ⟨first, 0⟩ } :=
      { h2 with rsets := by rw [h2.rsets] }
    obtain ⟨h3, h4⟩ := ih hput
    exact ⟨congrArg (r' :: ·) h3, h4⟩

/-! ### Executions -/

/-- The execution of a statement sees data, but it goes through in both libraries or in neither, and what it leaves
differs in data only. -/
theorem Nearly.execute (h : l.Nearly l') (stmt : Address) (iters : Nat) (memory memory' : Memory) :
    (∃ v v', v.Alike v' ∧ Library.execute stmt iters memory l = (none, v) ∧
      Library.execute stmt iters memory' l' = (none, v')) ∨
    ∃ rs m v rs' m' v', v.Alike v' ∧ Library.execute stmt iters memory l = (some (rs, m), v) ∧
      Library.execute stmt iters memory' l' = (some (rs', m'), v') ∧ m.next = memory.next ∧ m'.next = memory'.next := by
  unfold Library.execute
  obtain ⟨v, v', hv, hr, hr'⟩ | ⟨v, v', hv, hr, hr'⟩ := h.run .execute stmt _ _
  · exact .inl ⟨v, v', hv, hr, hr'⟩
  · rw [hr, hr']
    unfold withPrepared
    obtain ⟨hn, hn'⟩ | ⟨st, st', hst, hst', hb⟩ := hv.cases stmt
    · rw [hn, hn']
      exact .inl ⟨_, _, (Blind.fail (α := Unit) .invalidHandle hv).2, rfl, rfl⟩
    · rw [hst, hst']
      dsimp only
      rw [(blind_eq_blind.mp hb).1]
      cases st.prepared with
      | none => exact .inl ⟨_, _, (Blind.fail (α := Unit) _ hv).2, rfl, rfl⟩
      | some p =>
        right
        obtain ⟨sql, mode⟩ := p
        dsimp only
        have hdrop := hv.dropResultsets stmt
        generalize Library.dropResultsets stmt v = u at hdrop
        generalize Library.dropResultsets stmt v' = u' at hdrop
        rw [hdrop.hooks, hdrop.scripts]
        have hhook := HookState.framed_performAll sql iters ((u.hooks.get? sql).getD [])
          ⟨((u.stmts.get? stmt).map NativeStatement.binds).getD ∅, memory⟩
        have hhook' := HookState.framed_performAll sql iters ((u.hooks.get? sql).getD [])
          ⟨((u'.stmts.get? stmt).map NativeStatement.binds).getD ∅, memory'⟩
        obtain ⟨hopened, hlib⟩ := blind_openResultsets stmt ((u.scripts.get? sql).getD []) hdrop
        refine ⟨_, _, _, _, _, _, ?_, rfl, rfl, HookState.next_performAll _ _ _ _, HookState.next_performAll _ _ _ _⟩
        rw [hopened]
        have hframes : frames (((u'.stmts.get? stmt).map NativeStatement.binds).getD ∅) =
            frames (((u.stmts.get? stmt).map NativeStatement.binds).getD ∅) := by
          obtain ⟨hn, hn'⟩ | ⟨st, st', hst, hst', hb⟩ := hdrop.cases stmt
          · rw [hn, hn']
          · rw [hst, hst']
            exact (blind_eq_blind.mp hb).2.1
        refine { hlib.modify (fun st st' hb => ?_) stmt with attrs := by rw [hlib.attrs] }
        obtain ⟨h1, -, h3, -, h5⟩ := blind_eq_blind.mp hb
        exact blind_eq_blind.mpr ⟨h1, hhook'.binds.trans (hframes.trans hhook.binds.symm), h3, rfl, h5⟩

/-! ### Resultsets -/

lemma blind_resultset (stmt : Address) : Blind (resultset stmt) := by
  refine Blind.run fun l l' h => ?_
  obtain ⟨hn, hn'⟩ | ⟨st, st', hst, hst', hb⟩ := h.cases stmt
  · rw [hn, hn']
    exact Blind.fail _ h
  · rw [hst, hst']
    dsimp only
    obtain ⟨h1, h2, h3, h4, -⟩ := blind_eq_blind.mp hb
    rw [h4]
    split
    · exact ⟨rfl, h⟩
    · refine ⟨rfl, h.put ?_ stmt⟩
      exact blind_eq_blind.mpr ⟨h1, h2, h3, rfl, rfl⟩

lemma blind_nextResultset (stmt : Address) : Blind (nextResultset stmt) := by
  refine Blind.run fun l l' h => ?_
  obtain ⟨hn, hn'⟩ | ⟨st, st', hst, hst', hb⟩ := h.cases stmt
  · rw [hn, hn']
    exact Blind.fail _ h
  · rw [hst, hst']
    dsimp only
    obtain ⟨h1, h2, h3, h4, h5⟩ := blind_eq_blind.mp hb
    refine ⟨by rw [h4, h5], h.put ?_ stmt⟩
    exact blind_eq_blind.mpr ⟨h1, h2, h3, h4, by rw [h4, h5]⟩

lemma blind_fetch (rs : Address) (op : FetchOp) : Blind (fetch rs op) := by
  refine Blind.run fun l l' h => ?_
  rw [h.rsets]
  split
  · exact Blind.fail _ h
  · exact ⟨rfl, { h with rsets := rfl }⟩

lemma blind_currentRow (rs : Address) : Blind (currentRow rs) := fun l l' h =>
  ⟨by rw [currentRow, currentRow, h.rsets], { h with }⟩

lemma blind_columnCount (rs : Address) : Blind (columnCount rs) := by
  intro l l' h
  have hcalled : Alike (l.called none rs) (l'.called none rs) := { h with }
  unfold columnCount
  rw [h.rsets]
  split
  · exact Blind.fail _ hcalled
  · exact ⟨rfl, hcalled⟩

lemma blind_columnValue (rs : Address) (index : Nat) : Blind (columnValue rs index) := by
  refine Blind.run fun l l' h => ?_
  rw [h.rsets]
  split
  · exact Blind.fail _ h
  · split
    · exact Blind.fail _ h
    · split
      · exact ⟨rfl, h⟩
      · exact Blind.fail _ h

end Library
end DbClient
