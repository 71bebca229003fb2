import DbClient.Proofs.Native
import DbClient.Proofs.Transfer.Cells

/-! The native side of a transfer: what the library finds in the elements of a bound variable, which of its
primitives change that, and what it records of an execution. -/
namespace DbClient

namespace Bound
variable {b : Bound} {memory : Memory} {bytes : List UInt8} {i : Nat}

/-- What the library finds in an element of a variable whose buffer is there. -/
lemma data?_eq (hb : memory.get? b.buffer = some bytes) (hi : i < b.elemCount) :
    b.data? memory (i + 1) = some (if b.ty.isVariable
      then (slice bytes (i * b.elemSize) b.elemSize).take (b.sizes.getD i 0)
      else slice bytes (i * b.elemSize) b.elemSize) := by
  have hp : b.HasPosition (i + 1) := ⟨by omega, by omega⟩
  simp [data?, cell?, hp, hb, offset, sizeAt]

/-- The elements that are recorded are all elements, each as the library finds it. -/
lemma contents_eq (hb : memory.get? b.buffer = some bytes) :
    (b.contents memory).length = b.elemCount ∧
      ∀ i, i < b.elemCount → (b.contents memory)[i]? = b.data? memory (i + 1) := by
  have hmap : b.contents memory =
      (List.range' 1 b.elemCount).map fun pos => (b.data? memory pos).getD [] := by
    rw [contents, ← List.filterMap_eq_map]
    refine List.filterMap_congr fun pos hpos => ?_
    obtain ⟨i, hi, rfl⟩ := List.mem_range'.mp hpos
    simp only [Nat.one_mul, Nat.add_comm 1, Function.comp_apply, data?_eq hb hi, Option.getD_some]
  refine ⟨by simp [hmap], fun i hi => ?_⟩
  rw [hmap, List.getElem?_map, List.getElem?_range' hi]
  simp only [Nat.one_mul, Nat.add_comm 1, Option.map_some, data?_eq hb hi, Option.getD_some]

end Bound

namespace Library
variable {α : Type} {l l' l'' : Library} {stmt a : Address} {name : String} {names : List String} {pos size : Nat}

/-- Nothing changes for bound variables but actual lengths of some variables of a statement, and nothing is
recorded. -/
structure Resizes (stmt : Address) (names : List String) (l l' : Library) : Prop where
  executions : l'.executions = l.executions
  frames : ∀ a m, (l'.bound? a m).map Bound.frame = (l.bound? a m).map Bound.frame
  entries : ∀ a m, (a = stmt → m ∉ names) → l'.bound? a m = l.bound? a m

namespace Resizes

lemma of_eq (executions : l'.executions = l.executions) (stmts : l'.stmts = l.stmts) : Resizes stmt names l l' :=
  ⟨executions, fun a m => by rw [bound?, bound?, stmts], fun a m _ => by rw [bound?, bound?, stmts]⟩

lemma refl (l : Library) : Resizes stmt names l l := of_eq rfl rfl

lemma trans (h : Resizes stmt names l l') (h' : Resizes stmt names l' l'') : Resizes stmt names l l'' :=
  ⟨h'.executions.trans h.executions, fun a m => (h'.frames a m).trans (h.frames a m),
    fun a m hm => (h'.entries a m hm).trans (h.entries a m hm)⟩

/-- A primitive does what its body does, or it fails and does nothing. -/
lemma run {op : Primitive} {h : Address} {body : Library → Option α × Library}
    (hb : ∀ m, Resizes stmt names m (body m).2) (l : Library) : Resizes stmt names l (Library.run op h body l).2 := by
  unfold Library.run
  dsimp only
  split
  · exact of_eq rfl rfl
  · exact (of_eq rfl rfl : Resizes stmt names l { l.called (some op) h with error := none }).trans (hb _)

lemma withBound {body : Bound → Library → Option α × Library}
    (hb : ∀ b m, m.bound? a name = some b → Resizes stmt names m (body b m).2) (l : Library) :
    Resizes stmt names l (Library.withBound a name pos body l).2 := by
  unfold Library.withBound
  split
  · exact of_eq rfl rfl
  · rename_i b hbound
    split
    · exact hb b l hbound
    · exact of_eq rfl rfl

end Resizes

lemma bound?_putSize (l : Library) (b : Bound) (m : String) :
    bound? { l with stmts := l.stmts.modify stmt fun st => { st with binds := st.binds.put name b } } a m =
      if stmt = a ∧ name = m then (l.stmts.get? a).map fun _ => b else l.bound? a m := by
  simp only [bound?, Assoc.get?_modify]
  by_cases ha : stmt = a
  · cases hs : l.stmts.get? a with
    | none => simp
    | some st => by_cases hm : name = m <;> simp [ha, hm]
  · simp [ha]

/-- To ask for an actual length changes nothing. -/
lemma resizes_dataSize (stmt : Address) (name : String) (pos : Nat) (l : Library) :
    Resizes a names l (dataSize stmt name pos l).2 :=
  Resizes.run (Resizes.withBound fun _ m _ => Resizes.refl m) l

lemma resizes_setDataSize (hname : name ∈ names) (pos size : Nat) (l : Library) :
    Resizes stmt names l (setDataSize stmt name pos size l).2 := by
  refine Resizes.run (Resizes.withBound fun b m hb => ?_) l
  split
  · refine ⟨rfl, fun a k => ?_, fun a k hk => ?_⟩
    · by_cases hk : stmt = a ∧ name = k
      · obtain ⟨rfl, rfl⟩ := hk
        obtain ⟨st, hst, -⟩ := Option.bind_eq_some_iff.mp hb
        rw [bound?_putSize, if_pos ⟨rfl, rfl⟩, hb, hst]
        exact congrArg some (b.frame_setSize pos size)
      · rw [bound?_putSize, if_neg hk]
    · have hne : ¬(stmt = a ∧ name = k) := fun ⟨ha, hm⟩ => hk ha.symm (hm ▸ hname)
      rw [bound?_putSize, if_neg hne]
  · exact Resizes.of_eq rfl rfl

lemma withBound_some {body : Bound → Library → Option α × Library} {x : α}
    (hr : withBound stmt name pos body l = (some x, l')) :
    ∃ b, l.bound? stmt name = some b ∧ b.HasPosition pos ∧ body b l = (some x, l') := by
  unfold withBound at hr
  split at hr
  · cases hr
  · rename_i b hb
    split at hr
    · rename_i hp
      exact ⟨b, hb, hp, hr⟩
    · cases hr

lemma resizes_of_dataSize {n : Nat} (a : Address) (hr : dataSize stmt name pos l = (some n, l')) :
    Resizes a names l l' := by
  have h : Resizes a names l (dataSize stmt name pos l).2 := resizes_dataSize stmt name pos l
  rwa [hr] at h

/-- The actual length that the library gives is that of the variable. -/
lemma dataSize_some {n : Nat} (hr : dataSize stmt name pos l = (some n, l')) :
    ∃ b, l.bound? stmt name = some b ∧ b.HasPosition pos ∧ n = b.sizeAt pos := by
  obtain ⟨-, hb⟩ := run_some hr
  obtain ⟨b, hbound, hp, hbody⟩ := withBound_some hb
  exact ⟨b, hbound, hp, (Option.some.inj (Prod.mk.inj hbody).1).symm⟩

/-- An actual length that the library takes is that of the variable from then on. -/
lemma setDataSize_some (hr : setDataSize stmt name pos size l = (some (), l')) :
    ∃ b, l.bound? stmt name = some b ∧ b.HasPosition pos ∧ l'.bound? stmt name = some (b.setSize pos size) := by
  obtain ⟨-, hb⟩ := run_some hr
  obtain ⟨b, hbound, hp, hbody⟩ := withBound_some hb
  split at hbody
  · obtain ⟨-, rfl⟩ := Prod.mk.inj hbody
    obtain ⟨st, hst, -⟩ := Option.bind_eq_some_iff.mp hbound
    have hst' : l.stmts.get? stmt = some st := hst
    refine ⟨b, hbound, hp, ?_⟩
    rw [bound?_putSize, if_pos ⟨rfl, rfl⟩]
    exact congrArg (Option.map fun _ => b.setSize pos size) hst'
  · cases hbody

/-! ### The record of executions -/

/-- Executions are recorded by executions alone. -/
lemma executions_dropResultsets (stmt : Address) (l : Library) :
    (dropResultsets stmt l).executions = l.executions := by
  unfold dropResultsets
  split <;> rfl

lemma executions_letGo (kind : HandleKind) (h : Address) (l : Library) :
    (l.letGo kind h).executions = l.executions := by
  unfold letGo destroy run
  dsimp only
  cases (l.called (some .destroy) h).failures.get? .destroy with
  | some e => rfl
  | none =>
    by_cases ha : isAlive { l.called (some .destroy) h with error := none } h = true
    · simp only [ha, Bool.not_true, Bool.false_eq_true, if_false]
      exact executions_dropResultsets h _
    · simp only [Bool.not_eq_true] at ha
      simp only [ha, Bool.not_false, if_true]
      rfl

lemma executions_openResultsets (stmt : Address) (rows : List (List (List Value))) (l : Library) :
    (openResultsets stmt rows l).2.executions = l.executions := by
  induction rows generalizing l with
  | nil => rfl
  | cons first rest ih => exact ih _

/-- An execution that goes through is recorded with the text of the statement and what is found in all its
variables before the hook runs. -/
theorem execute_some {iters : Nat} {memory memory' : Memory} {results : List HookResult}
    (he : execute stmt iters memory l = (some (results, memory'), l')) :
    ∃ st sql mode, l.stmts.get? stmt = some st ∧ st.prepared = some (sql, mode) ∧
      l'.executions = l.executions ++ [⟨sql, iters, st.binds.pairs.map fun p => (p.1, p.2.contents memory)⟩] := by
  obtain ⟨-, hb⟩ := run_some he
  obtain ⟨st, sql, mode, hst, hp, hb⟩ := withPrepared_some hb
  refine ⟨st, sql, mode, hst, hp, ?_⟩
  have hd := (dropped stmt { l.called (some .execute) stmt with error := none }).stmts stmt
  rw [if_pos rfl, hst, Option.map_some] at hd
  obtain ⟨-, rfl⟩ := Prod.mk.inj hb
  simp only [hd, Option.map_some, Option.getD_some, executions_openResultsets, executions_dropResultsets]
  rfl

/-- One that fails is not. -/
lemma execute_none {iters : Nat} {memory : Memory} (he : execute stmt iters memory l = (none, l')) :
    l'.executions = l.executions := by
  unfold execute run at he
  dsimp only at he
  split at he
  · obtain ⟨-, rfl⟩ := Prod.mk.inj he
    rfl
  · unfold withPrepared at he
    split at he
    · obtain ⟨-, rfl⟩ := Prod.mk.inj he
      rfl
    · split at he
      · obtain ⟨-, rfl⟩ := Prod.mk.inj he
        rfl
      · cases congrArg Prod.fst he

/-- An execution of a statement that has been prepared goes through, unless it is made to fail. -/
lemma execute_goes {iters : Nat} {memory : Memory} {st : NativeStatement} {p : String × PrepareMode}
    (hst : l.stmts.get? stmt = some st) (hp : st.prepared = some p) (hf : l.failures.get? .execute = none) :
    ∃ results memory' l', execute stmt iters memory l = (some (results, memory'), l') := by
  have hf' : (l.called (some .execute) stmt).failures.get? .execute = none := hf
  have hst' : ({ l.called (some .execute) stmt with error := none } : Library).stmts.get? stmt = some st := hst
  simp only [execute, run, hf', withPrepared, hst', hp]
  exact ⟨_, _, _, rfl⟩

end Library
end DbClient
