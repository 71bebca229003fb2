import DbClient.Proofs.Bindings.Data
import DbClient.Proofs.Bindings.Names
import DbClient.Proofs.Transfer.Push

/-! Sizes of buffers. A bind lays a variable out in cells for the size that is declared, or for the longest value that
the variable has then, and it overflows where the buffer would be longer than any can be: the buffers of all objects
that are bound fit. -/
namespace DbClient
open World

/-- The length of the longest value of a variable, in bytes. -/
def HostVar.longest : HostVar → Nat
  | single ty x => (Host.bytes ty x).length
  | vector ty xs => (xs.map fun x => (Host.bytes ty x).length).foldl max 0

namespace BindPlan
variable {o : BindPlan}

/-! ### Declared sizes -/

/-- The declared size of a text or a byte string, or of each of the elements of a vector: a cell has one byte more. -/
def size (o : BindPlan) : Nat :=
  match o.form with
  | .cell => 0
  | .text size => size
  | .vector _ elemSize _ => elemSize - 1

/-- A size of zero stands for the length of the longest value that the variable has when it is bound. -/
lemma size_ofVar (name : String) (var : Nat) (direction : Direction) (kind : VectorKind) (size arraySize : Nat)
    (v : HostVar) (hv : v.ty.isVariable = true) : (ofVar name var direction kind size arraySize v).size =
      if size = 0 then max v.longest 1 else size := by
  cases v with
  | single ty x =>
    have hty : ty.isVariable = true := hv
    simp only [ofVar, single, BindPlan.size, HostVar.longest, hty, if_true]
  | vector ty xs =>
    have hty : ty.isVariable = true := hv
    have hlength : Host.elementLength ty = fun x => (Host.bytes ty x).length := by
      cases ty <;> first | rfl | cases hty
    simp only [ofVar, vector, BindPlan.size, HostVar.longest, ValueType.stride_of_variable hty, Nat.add_sub_cancel,
      hlength]

lemma Shaped.elemSize_eq (h : o.Shaped) : o.elemSize = o.ty.stride o.size := by
  unfold Shaped at h
  unfold elemSize size
  cases hform : o.form with
  | cell =>
    rw [hform] at h
    obtain ⟨length, hl⟩ := ValueType.size?_of_fixed h
    simp [ValueType.stride, hl]
  | text size =>
    rw [hform] at h
    exact (ValueType.stride_of_variable h size).symm
  | vector kind elemSize elemCount =>
    rw [hform] at h
    obtain ⟨size, rfl⟩ := h
    dsimp only
    cases hv : o.ty.isVariable with
    | true => rw [ValueType.stride_of_variable hv, Nat.add_sub_cancel, ValueType.stride_of_variable hv]
    | false =>
      obtain ⟨length, hl⟩ := ValueType.size?_of_fixed hv
      simp [ValueType.stride, hl]

/-- An object lays a variable out in cells of a declared size. -/
structure LaysOut (o : BindPlan) (size : Nat) (v : HostVar) : Prop where
  ty : o.ty = v.ty
  cells : o.elemSize = o.ty.stride o.size
  /-- A size of zero stands for the length of the longest value that the variable has. -/
  size : o.ty.isVariable = true → o.size = if size = 0 then max v.longest 1 else size

/-! ### Lengths of buffers -/

/-- Where the whole buffer fits, each of its cells ends at an offset that a word can hold. -/
lemma Fits.cell_le (h : o.Fits) {i : Nat} (hi : i < o.elemCount) : (i + 1) * o.elemSize ≤ maxLength :=
  calc (i + 1) * o.elemSize ≤ o.elemCount * o.elemSize := Nat.mul_le_mul_right _ hi
    _ = o.elemSize * o.elemCount := Nat.mul_comm _ _
    _ ≤ maxLength := h.2

end BindPlan

/-! ### Bound objects -/

namespace StatementData

/-- The form of each object suits its type. -/
def Shaped (d : StatementData) : Prop := ∀ o ∈ d.binds.objects, o.Shaped

lemma Shaped.lasting : Lasting Shaped := .of_objects fun _ _ _ hm _ => hm.shaped

/-- The buffer of each object fits. -/
def AllFit (d : StatementData) : Prop := ∀ o ∈ d.binds.objects, o.Fits

lemma AllFit.lasting : Lasting AllFit := .of_objects fun _ _ _ _ hfit => hfit

end StatementData

/-- A bind that goes through has bound an object that lays the variable out in cells of the declared size. -/
theorem Statement.laysOut_of_bind {s : Statement} {w w' : World} {index : BindIndex} {var size : Nat}
    {direction : Direction} {kind : VectorKind} {v : HostVar} (hv : w.vars.get? var = some v)
    (h : (s.bind index var direction kind size).run w = (.ok (), w')) : ∃ d o, s.data? w' = some d ∧
      o ∈ d.binds.objects ∧ o.name = index.text ∧ o.var = var ∧ o.direction = direction ∧ o.LaysOut size v := by
  obtain ⟨e, he, -⟩ | ⟨id, n, d, o, -, hb⟩ := (s.ends_bind index direction kind size hv).elim h
  · cases he
  · have hlive : w'.Live id (n.keeping (d.bound o)) := by
      refine ⟨?_, hb.live.2⟩
      rw [hb.nodes, Table.get?_modify, if_pos rfl, hb.live.1]
      rfl
    obtain ⟨-, hvar, hdirection⟩ := aim_ofVar o.name var direction kind size (max d.arraySize d.initialArraySize) v
    obtain ⟨-, hty⟩ := planned_ofVar var direction kind size v d o.name
    have hmade : o.MadeFor d w := hb.plan ▸ madeFor_ofVar hv d o.name direction kind size
    have hsize := BindPlan.size_ofVar o.name var direction kind size (max d.arraySize d.initialArraySize) v
    rw [← hb.plan] at hvar hdirection hty hsize
    exact ⟨d.bound o, o, data?_eq_some.mpr ⟨id, _, hb.handle, hlive, rfl⟩, BindsHolder.self_mem_add,
      BindIndex.text_of_toName hb.name, hvar, hdirection, hty, hmade.shaped.elemSize_eq, fun h => hsize (hty ▸ h)⟩

end DbClient
