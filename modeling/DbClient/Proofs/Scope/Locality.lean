import DbClient.Proofs.Scope.Invocation

/-! The locality of calls. A call has to do with its handle and, if that is a statement, with the resultsets that the
statement lists: whatever is kept of other handles stays as it was. -/
namespace DbClient

/-- A filter that lets all entries of a key pass changes nothing under that key. -/
lemma Assoc.get?_filter {κ α : Type} [DecidableEq κ] {m : Assoc κ α} {p : κ × α → Bool} {k : κ}
    (hp : ∀ q, q.1 = k → p q = true) : (Assoc.mk (m.pairs.filter p)).get? k = m.get? k := by
  unfold Assoc.get?
  dsimp only
  induction m.pairs with
  | nil => rfl
  | cons q rest ih =>
    obtain ⟨j, a⟩ := q
    by_cases hj : j = k
    · rw [List.filter_cons_of_pos (hp (j, a) hj)]
      simp [find, hj]
    · by_cases hq : p (j, a) = true
      · rw [List.filter_cons_of_pos hq]
        simp only [find, hj, if_false, ih]
      · rw [List.filter_cons_of_neg hq, ih]
        simp only [find, hj, if_false]

namespace Library
variable {α : Type} {l l' m : Library} {op : Primitive} {h stmt : Address} {body : Library → Option α × Library}

/-- A step that has to do with one handle. Nothing changes of the others that there were, except of resultsets that
the handle lists; and no failure is injected. -/
structure Beside (h : Address) (l l' : Library) : Prop where
  next : l.next ≤ l'.next
  stmts : ∀ s, s ≠ h → s.number ≤ l.next → l'.stmts.get? s = l.stmts.get? s
  attrs : ∀ s a, s ≠ h → l'.attr? s a = l.attr? s a
  rsets : ∀ r, r ≠ h → r ∉ l.listed h → r.number ≤ l.next → l'.rsets.get? r = l.rsets.get? r
  handles : ∀ r, r ≠ h → r ∉ l.listed h → r.number ≤ l.next → l'.handles.get? r = l.handles.get? r
  failures : ∀ op e, l'.failures.get? op = some e → l.failures.get? op = some e

namespace Beside

lemma of_eq (next : l'.next = l.next) (stmts : l'.stmts = l.stmts) (attrs : l'.attrs = l.attrs)
    (rsets : l'.rsets = l.rsets) (handles : l'.handles = l.handles) (failures : l'.failures = l.failures) :
    Beside h l l' :=
  ⟨Nat.le_of_eq next.symm, fun _ _ _ => by rw [stmts], fun _ _ _ => by rw [attr?, attr?, attrs],
    fun _ _ _ _ => by rw [rsets], fun _ _ _ _ => by rw [handles], fun _ _ hf => failures ▸ hf⟩

@[refl] lemma refl (l : Library) : Beside h l l := of_eq rfl rfl rfl rfl rfl rfl

lemma fail (e : NativeError) : Beside h l (Library.fail (α := α) e l).2 := of_eq rfl rfl rfl rfl rfl rfl

lemma putStmt (st : NativeStatement) : Beside h l { l with stmts := l.stmts.put h st } := by
  refine ⟨Nat.le_refl _, fun s hs _ => ?_, fun _ _ _ => rfl, fun _ _ _ _ => rfl, fun _ _ _ _ => rfl, fun _ _ hf => hf⟩
  rw [Assoc.get?_put, if_neg (Ne.symm hs)]

lemma modifyStmt (f : NativeStatement → NativeStatement) : Beside h l { l with stmts := l.stmts.modify h f } := by
  refine ⟨Nat.le_refl _, fun s hs _ => ?_, fun _ _ _ => rfl, fun _ _ _ _ => rfl, fun _ _ _ _ => rfl, fun _ _ hf => hf⟩
  rw [Assoc.get?_modify, if_neg (Ne.symm hs)]

lemma putAttr (attr : Attr) (v : Value) : Beside h l { l with attrs := l.attrs.put (h, attr) v } := by
  refine ⟨Nat.le_refl _, fun _ _ _ => rfl, fun s a hs => ?_, fun _ _ _ _ => rfl, fun _ _ _ _ => rfl, fun _ _ hf => hf⟩
  rw [attr?, Assoc.get?_put, if_neg fun he => hs (congrArg Prod.fst he).symm]
  rfl

lemma putRset (c : Cursor) : Beside h l { l with rsets := l.rsets.put h c } := by
  refine ⟨Nat.le_refl _, fun _ _ _ => rfl, fun _ _ _ => rfl, fun r hr _ _ => ?_, fun _ _ _ _ => rfl, fun _ _ hf => hf⟩
  rw [Assoc.get?_put, if_neg (Ne.symm hr)]

lemma allocate (kind : HandleKind) (origin : Origin) : Beside h l (l.allocate kind origin).2 := by
  refine ⟨Nat.le_add_right _ _, fun _ _ _ => rfl, fun _ _ _ => rfl, fun _ _ _ _ => rfl, fun r _ _ hr => ?_,
    fun _ _ hf => hf⟩
  change (l.handles.put ⟨l.next + 0x10⟩ kind).get? r = _
  rw [Assoc.get?_put, if_neg]
  rintro rfl
  exact absurd hr (by simp)

/-- Resultsets that are opened are new, so that nothing is said of any that there were. -/
lemma openResultsets (stmt : Address) (rows : List (List (List Value))) (l : Library) :
    (openResultsets stmt rows l).2.attrs = l.attrs ∧
      ∀ r : Address, r.number ≤ l.next → (openResultsets stmt rows l).2.rsets.get? r = l.rsets.get? r := by
  induction rows generalizing l with
  | nil => exact ⟨rfl, fun _ _ => rfl⟩
  | cons first rest ih =>
    obtain ⟨hattrs, hrsets⟩ := ih { (l.allocate .resultset (.opened stmt)).2 with
      rsets := (l.allocate .resultset (.opened stmt)).2.rsets.put ⟨l.next + 0x10⟩ ⟨first, 0⟩ }
    refine ⟨hattrs, fun r hr => (hrsets r (Nat.le_add_right_of_le hr)).trans ?_⟩
    change (l.rsets.put ⟨l.next + 0x10⟩ ⟨first, 0⟩).get? r = _
    rw [Assoc.get?_put, if_neg]
    rintro rfl
    exact absurd hr (by simp)

lemma attrs_dropResultsets (stmt : Address) (l : Library) : (dropResultsets stmt l).attrs = l.attrs := by
  unfold dropResultsets
  split <;> rfl

/-- A call is local if its body is. -/
lemma run (hb : ∀ m, Beside h m (body m).2) : Beside h l (Library.run op h body l).2 := by
  cases hf : l.failures.get? op with
  | some e =>
    rw [run_injected hf]
    refine ⟨Nat.le_refl _, fun _ _ _ => rfl, fun _ _ _ => rfl, fun _ _ _ _ => rfl, fun _ _ _ _ => rfl,
      fun op' e' he => ?_⟩
    change (l.failures.erase op).get? op' = some e' at he
    rw [Assoc.get?_erase] at he
    split at he
    · cases he
    · exact he
  | none =>
    rw [run_free hf]
    have h := hb { l.called (some op) h with error := none }
    exact ⟨h.next, h.stmts, h.attrs, h.rsets, h.handles, h.failures⟩

lemma withPrepared {f : NativeStatement → String → Library → Option α × Library}
    (hf : ∀ st sql, l.stmts.get? h = some st → Beside h l (f st sql l).2) : Beside h l (withPrepared h f l).2 := by
  unfold Library.withPrepared
  split
  · exact fail _
  · rename_i hst
    split
    · exact fail _
    · exact hf _ _ hst

lemma withBound {name : String} {pos : Nat} {f : Bound → Library → Option α × Library}
    (hf : ∀ b, Beside h l (f b l).2) : Beside h l (withBound h name pos f l).2 := by
  unfold Library.withBound
  split
  · exact fail _
  · split
    · exact hf _
    · exact fail _

lemma create (kind : HandleKind) (parent : Address) (l : Library) : Beside parent l (create kind parent l).2 := by
  refine Beside.run fun m => ?_
  split
  · exact .fail _
  · have h := Beside.allocate (h := parent) (l := m) kind (.created parent)
    dsimp only
    split
    · refine ⟨h.next, fun s _ hs => ?_, h.attrs, h.rsets, h.handles, h.failures⟩
      change (m.stmts.put ⟨m.next + 0x10⟩ .fresh).get? s = _
      rw [Assoc.get?_put, if_neg]
      rintro rfl
      exact absurd hs (by simp)
    · exact h

lemma destroy (kind : HandleKind) (h : Address) (l : Library) : Beside h l (destroy kind h l).2 := by
  refine Beside.run fun m => ?_
  split
  · exact .fail _
  · have hd := dropped h { m with handles := m.handles.erase h }
    refine ⟨Nat.le_of_eq hd.next.symm, fun s hs _ => ?_, fun s a hs => ?_, fun r _ hr _ => ?_, fun r hr hr' _ => ?_,
      fun op e hf => hd.failures ▸ hf⟩
    · change ((dropResultsets h _).stmts.erase h).get? s = _
      rw [Assoc.get?_erase, if_neg (Ne.symm hs), hd.stmts, if_neg (Ne.symm hs)]
    · change (Assoc.mk ((dropResultsets h _).attrs.pairs.filter fun p => p.1.1 ≠ h)).get? (s, a) = _
      rw [Assoc.get?_filter fun q hq => by simpa [hq] using hs, Beside.attrs_dropResultsets]
      rfl
    · exact (hd.rsets r).trans (if_neg hr)
    · refine (hd.handles r).trans ((if_neg hr').trans ?_)
      change (m.handles.erase h).get? r = _
      rw [Assoc.get?_erase, if_neg (Ne.symm hr)]

lemma prepare (stmt : Address) (sql : String) (mode : PrepareMode) (l : Library) :
    Beside stmt l (prepare stmt sql mode l).2 := by
  refine Beside.run fun m => ?_
  split
  · exact .fail _
  · split
    · exact .fail _
    · have hd := dropped stmt m
      refine ⟨Nat.le_of_eq hd.next.symm, fun s hs _ => ?_, fun s a hs => ?_, fun r _ hr _ => ?_, fun r _ hr _ => ?_,
        fun op e hf => hd.failures ▸ hf⟩
      · change ((dropResultsets stmt m).stmts.modify stmt _).get? s = _
        rw [Assoc.get?_modify, if_neg (Ne.symm hs), hd.stmts, if_neg (Ne.symm hs)]
      · change ((dropResultsets stmt m).attrs.erase (stmt, .rowCount)).get? (s, a) = _
        rw [Assoc.get?_erase, if_neg fun he => hs (congrArg Prod.fst he).symm, Beside.attrs_dropResultsets]
        rfl
      · exact (hd.rsets r).trans (if_neg hr)
      · exact (hd.handles r).trans (if_neg hr)

lemma execute (stmt : Address) (iters : Nat) (memory : Memory) (l : Library) :
    Beside stmt l (execute stmt iters memory l).2 := by
  refine Beside.run fun m => .withPrepared fun st sql _ => ?_
  have hd := dropped stmt m
  have hattrs := Beside.attrs_dropResultsets stmt m
  dsimp only
  generalize dropResultsets stmt m = m1 at hd hattrs
  generalize HookState.performAll sql iters _ _ = hook
  have ho := opened stmt ((m1.scripts.get? sql).getD []) m1
  have hr := Beside.openResultsets stmt ((m1.scripts.get? sql).getD []) m1
  generalize Library.openResultsets stmt ((m1.scripts.get? sql).getD []) m1 = made at ho hr
  obtain ⟨results, s⟩ := hook
  obtain ⟨opened, m2⟩ := made
  dsimp only at ho hr ⊢
  have hold : ∀ r : Address, r.number ≤ m.next → r ∉ opened := fun r hr hm =>
    absurd (hd.next ▸ (ho.fresh r hm).1) (Nat.not_lt.mpr hr)
  refine ⟨hd.next ▸ ho.next, fun s' hs _ => ?_, fun s' a hs => ?_, fun r _ hn hlt => ?_, fun r _ hn hlt => ?_,
    fun op e hf => ?_⟩
  · change (m2.stmts.modify stmt _).get? s' = _
    rw [Assoc.get?_modify, if_neg (Ne.symm hs), ho.stmts, hd.stmts, if_neg (Ne.symm hs)]
  · change (m2.attrs.put (stmt, .rowCount) _).get? (s', a) = _
    rw [Assoc.get?_put, if_neg fun he => hs (congrArg Prod.fst he).symm, hr.1, hattrs]
    rfl
  · exact (hr.2 r (hd.next ▸ hlt)).trans ((hd.rsets r).trans (if_neg hn))
  · refine (ho.handles r).trans ((if_neg (hold r hlt)).trans ((hd.handles r).trans (if_neg hn)))
  · rw [← hd.failures, ← ho.failures]
    exact hf

end Beside
end Library

namespace Invocation
open Library
variable {i : Invocation} {l : Library}

/-- A call has to do with its handle. -/
theorem beside (i : Invocation) (l : Library) : Beside i.handle l (i.run l).2 := by
  cases i with
  | create kind parent => exact .create kind parent l
  | destroy kind h => exact .destroy kind h l
  | getAttr h attr =>
    refine Beside.run fun m => ?_
    split
    · exact .fail _
    · split
      · exact .refl _
      · split
        · exact .refl _
        · exact .fail _
  | setAttr h attr v =>
    refine Beside.run fun m => ?_
    split
    · exact .fail _
    · exact .putAttr _ _
  | prepare stmt sql mode => exact .prepare stmt sql mode l
  | bind stmt d => exact Beside.run fun m => .withPrepared fun _ _ _ => .putStmt _
  | register stmt name ty maxLength => exact Beside.run fun m => .withPrepared fun _ _ _ => .putStmt _
  | dataSize stmt name pos => exact Beside.run fun m => .withBound fun _ => .refl _
  | setDataSize stmt name pos size =>
    refine Beside.run fun m => .withBound fun b => ?_
    split
    · exact .modifyStmt _
    · exact .fail _
  | execute stmt iters memory => exact .execute stmt iters memory l
  | resultset stmt =>
    refine Beside.run fun m => ?_
    split
    · exact .fail _
    · split
      · exact .refl _
      · exact .putStmt _
  | nextResultset stmt =>
    refine Beside.run fun m => ?_
    split
    · exact .fail _
    · exact .putStmt _
  | fetch rs move =>
    refine Beside.run fun m => ?_
    split
    · exact .fail _
    · exact .putRset _
  | currentRow rs => exact .of_eq rfl rfl rfl rfl rfl rfl
  | columnCount rs =>
    change Beside rs l (l.columnCount rs).2
    unfold Library.columnCount
    split <;> exact .of_eq rfl rfl rfl rfl rfl rfl
  | columnValue rs index =>
    refine Beside.run fun m => ?_
    split
    · exact .fail _
    · split
      · exact .fail _
      · split
        · exact .refl _
        · exact .fail _
  | breakCall conn =>
    refine Beside.run fun m => ?_
    split
    · exact .fail _
    · exact .of_eq rfl rfl rfl rfl rfl rfl

end Invocation
end DbClient
