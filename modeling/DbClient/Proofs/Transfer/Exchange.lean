import DbClient.Bind.Transfer
import DbClient.Proofs.Act
import DbClient.Proofs.Transfer.Cells

/-! Exchanges between variables and buffers as rows of steps. What holds across each write, each question to the
native library and each change of a variable holds across the exchange of all objects, whether it fails or not. -/
namespace DbClient
open Act World

namespace World
variable {w : World}

lemma get?_setVar {id x : Nat} {old new : HostVar} (h : w.vars.get? id = some old) :
    (w.setVar id new).vars.get? x = if id = x then some new else w.vars.get? x := by
  rw [setVar, Table.get?_modify]
  split
  · rename_i he
    rw [← he, h, Option.map_some]
  · rfl

end World

namespace BindObject
variable {R : World → World → Prop} {I : World → Prop} {w v : World} {stmt : Address} {arraySize : Nat}
  {o : BindObject} {os : List BindObject} {ty : ValueType}

/-- A relation that holds across each step of the way into the buffer of an object, as long as a property lasts. -/
structure Loading (R : World → World → Prop) (I : World → Prop) (stmt : Address) (o : BindObject) : Prop where
  lasts : ∀ w w', R w w' → I w → I w'
  write : ∀ w offset bytes, Does R (update (World.writeBuffer o.buffer offset bytes)) w
  report : ∀ w pos size, I w → Does R (o.reportSize stmt pos size) w
  note : ∀ w n, Does R (Act.note n) w

/-- A relation that holds across each step of the way out of the buffer of an object, as long as a property lasts:
only single values come to single variables, and only elements that take part to vectors. -/
structure Unloading (R : World → World → Prop) (I : World → Prop) (stmt : Address) (arraySize : Nat) (o : BindObject) :
    Prop where
  lasts : ∀ w w', R w w' → I w → I w'
  ask : ∀ w pos limit, I w → Does R (o.askSize stmt pos limit) w
  single : ∀ w ty x y, o.direction.isOut → w.vars.get? o.var = some (.single ty x) →
    Does R (update (World.setVar o.var (.single ty y))) w
  element : ∀ w ty xs i y, o.direction.isOut → w.vars.get? o.var = some (.vector ty xs) →
    o.Covers arraySize xs.length i → Does R (update (World.setVar o.var (.vector ty (xs.set i y)))) w
  note : ∀ w n, Does R (Act.note n) w

/-! ### Into the buffers -/

namespace Loading
variable [IsTrans World R]

lemma pushCell (h : Loading R I stmt o) (x : Host ty) : Does R (o.pushCell ty x) w :=
  (h.write _ _ _).seq fun _ _ _ => h.note _ _

lemma pushText (h : Loading R I stmt o) (hw : I w) (size : Nat) (x : Host ty) :
    Does R (o.pushText stmt size ty x) w :=
  (h.write _ _ _).seq fun _ _ hr => (h.report _ _ _ (h.lasts _ _ hr hw)).seq fun _ _ _ => h.note _ _

variable [Std.Refl R]

lemma pushFrom (h : Loading R I stmt o) (hw : I w) (i : Nat) (xs : List (Host ty)) :
    Does R (o.pushFrom stmt ty i xs) w := by
  induction xs generalizing w i with
  | nil => exact Does.pure _
  | cons x rest ih =>
    refine Does.get ((h.write _ _ _).seq fun _ v hr => ?_)
    have hv : I v := h.lasts _ _ hr hw
    dsimp only
    split
    · exact (h.report _ _ _ hv).seq fun _ _ hr' => ih (h.lasts _ _ hr' hv) _
    · exact ih hv _

theorem push (h : Loading R I stmt o) (hw : I w) (arraySize : Nat) : Does R (o.push stmt arraySize) w := by
  apply Does.get
  split
  · split
    · exact h.pushText hw _ _
    · exact Does.pure _
  · split
    · exact h.pushCell _
    · exact Does.pure _
  · split
    · exact (h.pushFrom hw _ _).seq fun _ _ _ => h.note _ _
    · exact Does.pure _
  · exact Does.pure _

end Loading

/-! ### Out of the buffers -/

/-- The length of an element: the actual one where there is one, cut to leave the last byte of the cell. -/
def askLength (o : BindObject) (stmt : Address) (ty : ValueType) (i : Nat) : Act Nat :=
  if ty.isVariable then o.askSize stmt (i + 1) (o.elemSize - 1) else pure o.elemSize

lemma pullFrom_succ (xs : List (Host ty)) (i count : Nat) : o.pullFrom stmt ty xs i (count + 1) = (do
    let size ← o.askLength stmt ty i
    match Host.ofBytes? ty ((o.cell i (← get)).take size) with
    | none => throw (.conversion ty)
    | some x =>
      Act.update (World.setVar o.var (.vector ty (xs.set i x)))
      o.pullFrom stmt ty (xs.set i x) (i + 1) count) := by
  conv_lhs => unfold pullFrom
  unfold askLength
  split <;> rfl

/-- A question that has been answered has touched nothing but the library. -/
lemma ok_of_askSize {pos limit n : Nat} (h : (o.askSize stmt pos limit).run w = (.ok n, v)) :
    ∃ size l, Library.dataSize stmt o.name pos w.library = (some size, l) ∧ n = min size limit ∧
      v = { w with library := l } := by
  obtain ⟨size, u, hask, hend⟩ := ok_of_bind h
  obtain ⟨l, hl, rfl⟩ := ok_of_require hask
  obtain ⟨hn, rfl⟩ := Prod.mk.inj hend
  exact ⟨size, l, hl, (Except.ok.inj hn).symm, rfl⟩

lemma ok_of_askLength {i n : Nat} (h : (o.askLength stmt ty i).run w = (.ok n, v)) : ∃ l, v = { w with library := l } ∧
    if ty.isVariable then ∃ size, Library.dataSize stmt o.name (i + 1) w.library = (some size, l) ∧
      n = min size (o.elemSize - 1)
    else l = w.library ∧ n = o.elemSize := by
  unfold askLength at h
  split
  · rename_i hv
    rw [if_pos hv] at h
    obtain ⟨size, l, hl, hn, rfl⟩ := ok_of_askSize h
    exact ⟨l, rfl, size, hl, hn⟩
  · rename_i hv
    rw [if_neg hv] at h
    obtain ⟨hn, rfl⟩ := Prod.mk.inj h
    exact ⟨w.library, rfl, rfl, (Except.ok.inj hn).symm⟩

namespace Unloading
variable [Std.Refl R] [IsTrans World R]

lemma pullCell (h : Unloading R I stmt arraySize o) (hout : o.direction.isOut) {x : Host ty}
    (hv : w.vars.get? o.var = some (.single ty x)) : Does R (o.pullCell ty) w := by
  apply Does.get
  split
  · exact Does.throw _
  · exact (h.single w ty x _ hout hv).seq fun _ _ _ => h.note _ _

lemma pullText (h : Unloading R I stmt arraySize o) (hw : I w) (hout : o.direction.isOut) {x : Host ty}
    (hv : w.vars.get? o.var = some (.single ty x)) (size : Nat) : Does R (o.pullText stmt size ty) w := by
  refine (h.ask w 1 size hw).bind fun count v hrun _ => Does.get ?_
  obtain ⟨_, l, -, -, rfl⟩ := ok_of_askSize hrun
  split
  · exact Does.throw _
  · exact (h.single { w with library := l } ty x _ hout hv).seq fun _ _ _ => h.note _ _

lemma pullFrom (h : Unloading R I stmt arraySize o) (hw : I w) (hout : o.direction.isOut) {xs : List (Host ty)}
    {i count : Nat} (hv : w.vars.get? o.var = some (.vector ty xs)) (hi : i + count ≤ o.count arraySize xs.length) :
    Does R (o.pullFrom stmt ty xs i count) w := by
  induction count generalizing w xs i with
  | zero => exact Does.pure _
  | succ count ih =>
    have hask : Does R (o.askLength stmt ty i) w := by
      unfold askLength
      split
      · exact h.ask w _ _ hw
      · exact Does.pure _
    rw [pullFrom_succ]
    refine hask.bind fun size v hrun hr => Does.get ?_
    obtain ⟨l, rfl, -⟩ := ok_of_askLength hrun
    split
    · exact Does.throw _
    · rename_i y _
      have hi : o.Covers arraySize xs.length i := BindPlan.covers_iff.mpr (by omega)
      refine (h.element { w with library := l } ty xs i y hout hv hi).bind fun _ v hrun' hr' => ?_
      obtain ⟨-, rfl⟩ := Prod.mk.inj hrun'
      refine ih (h.lasts _ _ hr' (h.lasts _ _ hr hw)) ?_ (by rw [List.length_set]; omega)
      exact (get?_setVar hv).trans (if_pos rfl)

theorem pull (h : Unloading R I stmt arraySize o) (hw : I w) : Does R (o.pull stmt arraySize) w := by
  unfold BindObject.pull
  split
  · rename_i hout
    apply Does.get
    split
    · rename_i hv _
      exact h.pullText hw hout hv _
    · rename_i hv _
      exact h.pullCell hout hv
    · rename_i hv
      exact (h.pullFrom hw hout hv (by omega)).seq fun _ _ _ => h.note _ _
    · exact Does.pure _
  · exact Does.pure _

end Unloading

/-! ### All objects -/

theorem does_exchangeAll [Std.Refl R] [IsTrans World R] {exchange : BindObject → Act Unit}
    (hkeeps : ∀ w w', R w w' → I w → I w') (he : ∀ o ∈ os, ∀ w, I w → Does R (exchange o) w) (hw : I w) :
    Does R (exchangeAll exchange os) w := by
  induction os generalizing w with
  | nil => exact Does.pure _
  | cons o rest ih =>
    exact (he o List.mem_cons_self w hw).dressed.seq fun _ _ hr =>
      ih (fun p hp => he p (List.mem_cons_of_mem o hp)) (hkeeps _ _ hr hw)

/-- An exchange of many objects is one of some of them, one of the next, and one of the rest. -/
lemma ok_of_exchangeAll_append {exchange : BindObject → Act Unit} {before after : List BindObject}
    (h : (exchangeAll exchange (before ++ o :: after)).run w = (.ok (), v)) :
    ∃ u u', (exchangeAll exchange before).run w = (.ok (), u) ∧ (exchange o).run u = (.ok (), u') ∧
      (exchangeAll exchange after).run u' = (.ok (), v) := by
  induction before generalizing w with
  | nil =>
    obtain ⟨_, u, hfirst, hrest⟩ := ok_of_bind h
    exact ⟨w, u, rfl, ok_of_dressed hfirst, hrest⟩
  | cons p before ih =>
    obtain ⟨_, u, hfirst, hrest⟩ := ok_of_bind h
    obtain ⟨u', u'', hbefore, hown, hafter⟩ := ih hrest
    refine ⟨u', u'', ?_, hown, hafter⟩
    rw [exchangeAll, run_bind, hfirst]
    exact hbefore

end BindObject
end DbClient
