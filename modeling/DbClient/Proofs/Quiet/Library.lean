import DbClient.Native.Library
import DbClient.Proofs.Assoc

/-! Quiet steps of the native library: no handle comes or goes, no statement gets another text, other
variables or other resultsets. Calls are made with handles that somebody knows. -/
namespace DbClient

/-- The variable as if all its elements were empty. -/
def Bound.frame (b : Bound) : Bound := { b with sizes := List.replicate b.sizes.length 0 }

@[simp] lemma Bound.frame_setSize (b : Bound) (pos size : Nat) : (b.setSize pos size).frame = b.frame := by
  simp [frame, setSize]

/-- The variables without the actual lengths of their elements. -/
def frames (binds : Assoc String Bound) : Assoc String Bound :=
  ⟨binds.pairs.map fun p => (p.1, p.2.frame)⟩

lemma get?_frames (binds : Assoc String Bound) (name : String) :
    (frames binds).get? name = (binds.get? name).map Bound.frame := Assoc.find_map_values _ _ _

/-- Other actual lengths of a variable do not matter. -/
lemma frames_put {binds : Assoc String Bound} {name : String} {b b' : Bound}
    (h : binds.get? name = some b) (hf : b'.frame = b.frame) : frames (binds.put name b') = frames binds := by
  have hw : ∀ l : List (String × Bound), Assoc.find name l = some b →
      (Assoc.write name b' l).map (fun p => (p.1, p.2.frame)) = l.map fun p => (p.1, p.2.frame) := by
    intro l
    induction l with
    | nil => simp [Assoc.find]
    | cons p rest ih =>
      obtain ⟨j, c⟩ := p
      intro hl
      by_cases hj : j = name
      · simp only [Assoc.find, hj, if_true, Option.some.injEq] at hl
        simp [Assoc.write, hj, hf, hl]
      · simp only [Assoc.find, hj, if_false] at hl
        simp [Assoc.write, hj, ih hl]
  simp only [frames, Assoc.put, hw _ h]

/-- What quiet steps keep of a statement: its text, its variables and its resultsets. -/
def NativeStatement.core (st : NativeStatement) : NativeStatement :=
  { st with binds := frames st.binds, registered := [], cursor := none }

namespace Library

/-- A quiet step, for those handles that are known. -/
structure Quiet (known : Address → Prop) (l l' : Library) : Prop where
  next : l'.next = l.next
  handles : l'.handles = l.handles
  origins : l'.origins = l.origins
  destroyed : l'.destroyed = l.destroyed
  stmts : ∀ h, (l'.stmts.get? h).map NativeStatement.core = (l.stmts.get? h).map NativeStatement.core
  rsets : ∀ h, (l'.rsets.get? h).isSome = (l.rsets.get? h).isSome
  failures : l.failures.get? .destroy = none → l'.failures.get? .destroy = none
  calls : ∃ cs, l'.calls = l.calls ++ cs ∧ ∀ c ∈ cs, c.alive = l.handles ∧ c.op ≠ some .destroy ∧
    (known c.handle ∨ c.op = some .create ∧ c.handle = .null)

namespace Quiet
variable {α : Type} {known : Address → Prop} {l l' l'' : Library} {op : Primitive} {h stmt : Address}

/-- What a step changes that is none of the parts that quiet steps keep. -/
lemma of_eq (next : l'.next = l.next) (handles : l'.handles = l.handles) (origins : l'.origins = l.origins)
    (destroyed : l'.destroyed = l.destroyed) (stmts : l'.stmts = l.stmts) (rsets : l'.rsets = l.rsets)
    (failures : l'.failures = l.failures) (calls : l'.calls = l.calls) : Quiet known l l' :=
  ⟨next, handles, origins, destroyed, fun _ => by rw [stmts], fun _ => by rw [rsets],
    fun h => by rw [failures, h], [], by rw [calls, List.append_nil], by simp⟩

@[refl] lemma refl (l : Library) : Quiet known l l := of_eq rfl rfl rfl rfl rfl rfl rfl rfl

theorem trans (h : Quiet known l l') (h' : Quiet known l' l'') : Quiet known l l'' := by
  obtain ⟨cs, hcs, hc⟩ := h.calls
  obtain ⟨cs', hcs', hc'⟩ := h'.calls
  refine ⟨h'.next.trans h.next, h'.handles.trans h.handles, h'.origins.trans h.origins,
    h'.destroyed.trans h.destroyed, fun a => (h'.stmts a).trans (h.stmts a),
    fun a => (h'.rsets a).trans (h.rsets a), fun hf => h'.failures (h.failures hf), cs ++ cs', ?_, ?_⟩
  · rw [hcs', hcs, List.append_assoc]
  · intro c hm
    rcases List.mem_append.mp hm with hm | hm
    · exact hc c hm
    · rw [← h.handles]
      exact hc' c hm

lemma fail (e : NativeError) (l : Library) : Quiet known l { l with error := some e } :=
  of_eq rfl rfl rfl rfl rfl rfl rfl rfl

lemma called (hk : known h ∨ op = .create ∧ h = .null) (hop : op ≠ .destroy) (l : Library) :
    Quiet known l (l.called (some op) h) := by
  refine ⟨rfl, rfl, rfl, rfl, fun _ => rfl, fun _ => rfl, id, [⟨some op, h, l.handles⟩], rfl, ?_⟩
  intro c hc
  rw [List.mem_singleton.mp hc]
  exact ⟨rfl, by simpa using hop, hk.imp_right fun h => ⟨congrArg some h.1, h.2⟩⟩

lemma called_none (hk : known h) (l : Library) : Quiet known l (l.called none h) := by
  refine ⟨rfl, rfl, rfl, rfl, fun _ => rfl, fun _ => rfl, id, [⟨none, h, l.handles⟩], rfl, ?_⟩
  intro c hc
  rw [List.mem_singleton.mp hc]
  exact ⟨rfl, by simp, .inl hk⟩

/-- A primitive is quiet if its body is, as far as the outcome at hand is concerned. -/
theorem run_of_eq {body : Library → Option α × Library} {r : Option α}
    (hk : known h ∨ op = .create ∧ h = .null) (hop : op ≠ .destroy) (hr : run op h body l = (r, l'))
    (hb : ∀ m m', body m = (r, m') → Quiet known m m') : Quiet known l l' := by
  apply (called hk hop l).trans
  unfold Library.run at hr
  dsimp only at hr
  split at hr
  · cases hr
    refine ⟨rfl, rfl, rfl, rfl, fun _ => rfl, fun _ => rfl, fun hf => ?_, [], (List.append_nil _).symm, by simp⟩
    change ((l.called op h).failures.erase op).get? .destroy = none
    rw [Assoc.get?_erase, hf]
    split <;> rfl
  · have hclear : Quiet known (l.called op h) { l.called op h with error := none } :=
      of_eq rfl rfl rfl rfl rfl rfl rfl rfl
    exact hclear.trans (hb _ _ hr)

theorem run {body : Library → Option α × Library} (hk : known h) (hop : op ≠ .destroy)
    (hb : ∀ m, Quiet known m (body m).2) (l : Library) : Quiet known l (run op h body l).2 :=
  run_of_eq (.inl hk) hop rfl fun m m' he => by
    have := hb m
    rwa [he] at this

lemma takeError (l : Library) : Quiet known l l.takeError.2 := of_eq rfl rfl rfl rfl rfl rfl rfl rfl

lemma lastError (l : Library) : Quiet known l l.lastError.2 := of_eq rfl rfl rfl rfl rfl rfl rfl rfl

/-- A failure is injected, though not into destruction. -/
lemma failNext (hop : op ≠ .destroy) (e : NativeError) (l : Library) : Quiet known l (l.failNext op e) := by
  refine ⟨rfl, rfl, rfl, rfl, fun _ => rfl, fun _ => rfl, fun hf => ?_, [], (List.append_nil _).symm, by simp⟩
  change (l.failures.put op e).get? .destroy = none
  rw [Assoc.get?_put, if_neg hop]
  exact hf

/-- A statement may change in what quiet steps do not keep. -/
lemma putStmt {st st' : NativeStatement} (hs : l.stmts.get? stmt = some st) (hc : st'.core = st.core) :
    Quiet known l { l with stmts := l.stmts.put stmt st' } := by
  refine ⟨rfl, rfl, rfl, rfl, fun a => ?_, fun _ => rfl, id, [], (List.append_nil _).symm, by simp⟩
  rw [Assoc.get?_put]
  split
  · rename_i e
    rw [← e, hs, Option.map_some, Option.map_some, hc]
  · rfl

/-! ### Primitives -/

lemma getAttr (hk : known h) (attr : Attr) (l : Library) : Quiet known l (getAttr h attr l).2 :=
  run hk (by simp) (fun m => by
    split
    · exact fail _ _
    · split
      · rfl
      · split
        · rfl
        · exact fail _ _) l

lemma setAttr (hk : known h) (attr : Attr) (v : Value) (l : Library) :
    Quiet known l (setAttr h attr v l).2 :=
  run hk (by simp) (fun m => by
    split
    · exact fail _ _
    · exact of_eq rfl rfl rfl rfl rfl rfl rfl rfl) l

lemma breakCall (hk : known h) (l : Library) : Quiet known l (breakCall h l).2 :=
  run hk (by simp) (fun m => by
    split
    · exact fail _ _
    · exact of_eq rfl rfl rfl rfl rfl rfl rfl rfl) l

lemma withPrepared {body : NativeStatement → String → Library → Option α × Library}
    (hb : ∀ st sql m, m.stmts.get? stmt = some st → Quiet known m (body st sql m).2) (l : Library) :
    Quiet known l (withPrepared stmt body l).2 := by
  unfold Library.withPrepared
  split
  · exact fail _ _
  · rename_i st hst
    split
    · exact fail _ _
    · exact hb st _ l hst

lemma register (hk : known stmt) (name : String) (ty : ValueType) (maxLength : Nat) (l : Library) :
    Quiet known l (register stmt name ty maxLength l).2 :=
  run hk (by simp) (withPrepared fun st sql m hst => by
    dsimp only
    exact putStmt hst rfl) l

lemma withBound {name : String} {pos : Nat} {body : Bound → Library → Option α × Library}
    (hb : ∀ b m, m.bound? stmt name = some b → Quiet known m (body b m).2) (l : Library) :
    Quiet known l (withBound stmt name pos body l).2 := by
  unfold Library.withBound
  split
  · exact fail _ _
  · rename_i b hbound
    split
    · exact hb b l hbound
    · exact fail _ _

lemma dataSize (hk : known stmt) (name : String) (pos : Nat) (l : Library) :
    Quiet known l (dataSize stmt name pos l).2 :=
  run hk (by simp) (withBound fun _ m _ => refl m) l

lemma setDataSize (hk : known stmt) (name : String) (pos size : Nat) (l : Library) :
    Quiet known l (setDataSize stmt name pos size l).2 := by
  refine run hk (by simp) (withBound fun b m hb => ?_) l
  split
  · refine ⟨rfl, rfl, rfl, rfl, fun a => ?_, fun _ => rfl, id, [], (List.append_nil _).symm, by simp⟩
    obtain ⟨st, hst, hbst⟩ := Option.bind_eq_some_iff.mp hb
    change ((m.stmts.modify stmt _).get? a).map _ = _
    rw [Assoc.get?_modify]
    split
    · rename_i e
      rw [← e, hst]
      have hf : frames (st.binds.put name (b.setSize pos size)) = frames st.binds :=
        frames_put hbst (b.frame_setSize pos size)
      simp only [Option.map_some, NativeStatement.core, hf]
    · rfl
  · exact fail _ _

lemma resultset (hk : known stmt) (l : Library) : Quiet known l (resultset stmt l).2 :=
  run hk (by simp) (fun m => by
    split
    · exact fail _ _
    · rename_i st hst
      split
      · rfl
      · exact putStmt hst rfl) l

lemma nextResultset (hk : known stmt) (l : Library) : Quiet known l (nextResultset stmt l).2 :=
  run hk (by simp) (fun m => by
    split
    · exact fail _ _
    · rename_i st hst
      exact putStmt hst rfl) l

lemma fetch (hk : known h) (move : FetchOp) (l : Library) : Quiet known l (fetch h move l).2 :=
  run hk (by simp) (fun m => by
    split
    · exact fail _ _
    · rename_i c hc
      refine ⟨rfl, rfl, rfl, rfl, fun _ => rfl, fun a => ?_, id, [], (List.append_nil _).symm, by simp⟩
      change ((m.rsets.put h _).get? a).isSome = _
      rw [Assoc.get?_put]
      split
      · rename_i e
        rw [← e, hc]
        rfl
      · rfl) l

lemma currentRow (hk : known h) (l : Library) : Quiet known l (currentRow h l).2 := called_none hk l

lemma columnCount (hk : known h) (l : Library) : Quiet known l (columnCount h l).2 := by
  unfold Library.columnCount
  split
  · exact (called_none hk l).trans (fail _ _)
  · exact called_none hk l

lemma columnValue (hk : known h) (index : Nat) (l : Library) :
    Quiet known l (columnValue h index l).2 :=
  run hk (by simp) (fun m => by
    split
    · exact fail _ _
    · split
      · exact fail _ _
      · split
        · rfl
        · exact fail _ _) l

/-! ### Primitives that fail -/

lemma create {kind : HandleKind} {parent : Address} (hk : known parent ∨ parent = .null)
    (hr : create kind parent l = (none, l')) : Quiet known l l' :=
  run_of_eq (hk.imp_right fun h => ⟨rfl, h⟩) (by simp) hr fun m m' he => by
    split at he
    · cases he
      exact fail _ _
    · cases he

lemma prepare {sql : String} {mode : PrepareMode} (hk : known stmt)
    (hr : prepare stmt sql mode l = (none, l')) : Quiet known l l' :=
  run_of_eq (.inl hk) (by simp) hr fun m m' he => by
    split at he
    · cases he
      exact fail _ _
    · split at he
      · cases he
        exact fail _ _
      · cases he

lemma withPrepared_none {body : NativeStatement → String → Library → Option α × Library}
    (hb : ∀ st sql m, (body st sql m).1 ≠ none) (hr : Library.withPrepared stmt body l = (none, l')) :
    Quiet known l l' := by
  unfold Library.withPrepared at hr
  split at hr
  · cases hr
    exact fail _ _
  · split at hr
    · cases hr
      exact fail _ _
    · exact absurd (congrArg Prod.fst hr) (hb _ _ _)

lemma bind {d : BindDesc} (hk : known stmt) (hr : bind stmt d l = (none, l')) : Quiet known l l' :=
  run_of_eq (.inl hk) (by simp) hr fun _ _ he => withPrepared_none (fun _ _ _ => by simp) he

lemma execute {iters : Nat} {memory : Memory} (hk : known stmt)
    (hr : execute stmt iters memory l = (none, l')) : Quiet known l l' :=
  run_of_eq (.inl hk) (by simp) hr fun _ _ he => withPrepared_none (fun _ _ _ => by simp) he

end Quiet
end Library
end DbClient
