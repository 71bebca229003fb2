import DbClient.Proofs.Transfer.Push
import DbClient.Proofs.Values.Truncation

/-! A single value and a vector of one element, bound alike. Both objects describe the same buffer, and whatever is
exchanged through it, the bytes in it and the value in the variable go on to be the same. -/
namespace DbClient
open Act World

namespace Act
variable {α β : Type} {w w' : World}

/-- Two operations end alike in two worlds: with the same result, and in worlds that are related. -/
def Parallel (R : World → World → Prop) (a b : Act α) (w w' : World) : Prop :=
  (a.run w).1 = (b.run w').1 ∧ R (a.run w).2 (b.run w').2

namespace Parallel
variable {R S : World → World → Prop} {a b : Act α}

lemma pure (h : R w w') (x : α) : Parallel R (Pure.pure x) (Pure.pure x) w w' := ⟨rfl, h⟩

lemma throw (h : R w w') (e : ClientError) :
    Parallel R (MonadExcept.throw e : Act α) (MonadExcept.throw e) w w' := ⟨rfl, h⟩

lemma update {f g : World → World} (h : R (f w) (g w')) : Parallel R (Act.update f) (Act.update g) w w' := ⟨rfl, h⟩

/-- Only the second operation begins by looking at its world. -/
lemma getRight {f : World → Act α} (h : Parallel R a (f w') w w') : Parallel R a (MonadState.get >>= f) w w' := h

lemma get {f g : World → Act α} (h : Parallel R (f w) (g w') w w') :
    Parallel R (MonadState.get >>= f) (MonadState.get >>= g) w w' := h

/-- The rule for steps in a row; where the first ones fail, their worlds have to be related as the last ones are. -/
theorem bind {f g : α → Act β} (ha : Parallel R a b w w') (hf : ∀ x v v', R v v' → Parallel S (f x) (g x) v v')
    (hfail : ∀ v v', R v v' → S v v') : Parallel S (a >>= f) (b >>= g) w w' := by
  unfold Parallel at ha ⊢
  rw [run_bind, run_bind]
  rcases hr : a.run w with ⟨r, v⟩
  rcases hr' : b.run w' with ⟨r', v'⟩
  rw [hr, hr'] at ha
  obtain ⟨rfl, hv⟩ := ha
  cases r with
  | error e => exact ⟨rfl, hfail v v' hv⟩
  | ok x => exact hf x v v' hv

/-- A primitive gives the same in worlds with the same library. -/
lemma require {dress : ClientError → ClientError} {f : Library → Option α × Library} (hl : w.library = w'.library)
    (h : ∀ l, R { w with library := l } { w' with library := l }) :
    Parallel R (Act.require dress f) (Act.require dress f) w w' := by
  unfold Parallel
  rw [run_require, run_require, ← hl]
  rcases f w.library with ⟨_ | x, l⟩
  · exact ⟨rfl, h _⟩
  · exact ⟨rfl, h l⟩

end Parallel
end Act

namespace BindPlan
variable {ty : ValueType} {size : Nat} {p p' : BindPlan}

/-- One plan is for a single value, the other for a vector of one element, with the same room for the value. -/
structure Twins (ty : ValueType) (size : Nat) (p p' : BindPlan) : Prop where
  name : p.name = p'.name
  direction : p.direction = p'.direction
  types : p.ty = ty ∧ p'.ty = ty
  single : p.form = if ty.isVariable then .text size else .cell
  vector : p'.form = .vector .regular (ty.stride size) 1

namespace Twins

lemma elemSize_vector (h : Twins ty size p p') : p'.elemSize = ty.stride size := by
  simp only [elemSize, h.vector]

lemma elemSize_single (h : Twins ty size p p') : p.elemSize = ty.stride size := by
  unfold elemSize
  rw [h.single, h.types.1]
  cases hv : ty.isVariable with
  | true =>
    rw [if_pos rfl, ValueType.stride_of_variable hv]
  | false =>
    obtain ⟨length, hl⟩ := ValueType.size?_of_fixed hv
    rw [if_neg Bool.false_ne_true, ValueType.stride, hl]
    rfl

lemma counts_single (h : Twins ty size p p') : p.elemCount = 1 ∧ p.tableLength = 0 := by
  unfold elemCount tableLength
  rw [h.single]
  cases ty.isVariable <;> exact ⟨rfl, rfl⟩

lemma counts_vector (h : Twins ty size p p') : p'.elemCount = 1 ∧ p'.tableLength = 0 := by
  unfold elemCount tableLength
  rw [h.vector]
  exact ⟨rfl, rfl⟩

/-- The native library is told the same of both. -/
theorem desc (h : Twins ty size p p') (buffer : Nat) : p.desc buffer = p'.desc buffer := by
  simp only [BindPlan.desc, h.name, h.direction, h.types, h.elemSize_single, h.elemSize_vector, h.counts_single,
    h.counts_vector]

end Twins

/-- A single value and a vector of it alone are planned alike, whatever size is declared. -/
theorem twins_of_value (name : String) (i j : Nat) (direction : Direction) (size : Nat) (ty : ValueType)
    (x : Host ty) : Twins ty (if size = 0 then max (Host.elementLength ty x) 1 else size)
      (single name i direction size ty x) (vector name j direction .regular size 1 ty [x]) where
  name := rfl
  direction := rfl
  types := ⟨rfl, rfl⟩
  single := by
    cases hv : ty.isVariable with
    | true =>
      have hlength : Host.elementLength ty x = (Host.bytes ty x).length := by
        cases ty <;> first | rfl | cases hv
      simp only [BindPlan.single, hv, if_true, hlength]
    | false => simp only [BindPlan.single, hv, Bool.false_eq_true, if_false]
  vector := by
    simp only [BindPlan.vector, List.map_cons, List.map_nil, List.foldl_cons, List.foldl_nil, Nat.zero_max]

end BindPlan

namespace BindObject
variable {ty : ValueType} {size : Nat} {o o' : BindObject} {x : Host ty} {w w' : World}

/-- Twin objects over one buffer, in worlds with the same library and the same memory, where their variables hold a
value and the vector of it alone. -/
structure Mirrored (ty : ValueType) (size : Nat) (o o' : BindObject) (x : Host ty) (w w' : World) : Prop where
  twins : BindPlan.Twins ty size o.toBindPlan o'.toBindPlan
  shared : o.buffer = o'.buffer
  whole : (w.bufferBytes o.buffer).length = ty.stride size
  library : w.library = w'.library
  memory : w.memory = w'.memory
  single : w.vars.get? o.var = some (.single ty x)
  vector : w'.vars.get? o'.var = some (.vector ty [x])

namespace Mirrored

lemma ofLibrary (h : Mirrored ty size o o' x w w') (l : Library) :
    Mirrored ty size o o' x { w with library := l } { w' with library := l } :=
  { h with library := rfl }

lemma note (h : Mirrored ty size o o' x w w') (n n' : Notice) : Mirrored ty size o o' x (w.note n) (w'.note n') :=
  { h with }

/-- Writes to the buffer keep its length. -/
lemma writeBuffer (h : Mirrored ty size o o' x w w') (offset : Nat) (bytes : List UInt8) :
    Mirrored ty size o o' x (w.writeBuffer o.buffer offset bytes) (w'.writeBuffer o'.buffer offset bytes) where
  twins := h.twins
  shared := h.shared
  whole := by
    have hget : (w.writeBuffer o.buffer offset bytes).memory.get? o.buffer =
        (w.memory.get? o.buffer).map fun old => overlay old offset bytes :=
      (Table.get?_modify _ _ _ _).trans (if_pos rfl)
    have hwhole := h.whole
    unfold bufferBytes at hwhole ⊢
    rw [hget]
    cases hb : w.memory.get? o.buffer with
    | none => rwa [hb] at hwhole
    | some old =>
      rw [hb] at hwhole
      rw [Option.map_some, Option.getD_some, length_overlay]
      exact hwhole
  library := h.library
  memory := by rw [World.writeBuffer, World.writeBuffer, h.memory, h.shared]
  single := h.single
  vector := h.vector

/-- The value changes on both sides. -/
lemma setVar (h : Mirrored ty size o o' x w w') (y : Host ty) :
    Mirrored ty size o o' y (w.setVar o.var (.single ty y)) (w'.setVar o'.var (.vector ty [y])) where
  twins := h.twins
  shared := h.shared
  whole := h.whole
  library := h.library
  memory := h.memory
  single := by
    rw [World.setVar, Table.get?_modify, if_pos rfl, h.single]
    rfl
  vector := by
    rw [World.setVar, Table.get?_modify, if_pos rfl, h.vector]
    rfl

/-- The only cell is the whole buffer. -/
lemma cell (h : Mirrored ty size o o' x w w') :
    o.cell 0 w = w.bufferBytes o.buffer ∧ o'.cell 0 w' = w.bufferBytes o.buffer := by
  have hfront : slice (w.bufferBytes o.buffer) 0 (ty.stride size) = w.bufferBytes o.buffer :=
    List.take_of_length_le (Nat.le_of_eq h.whole)
  have hbytes : w'.bufferBytes o'.buffer = w.bufferBytes o.buffer := by
    rw [bufferBytes, bufferBytes, h.memory, h.shared]
  unfold BindObject.cell
  rw [Nat.zero_mul, Nat.zero_mul, hbytes, h.twins.elemSize_single, h.twins.elemSize_vector, hfront]
  exact ⟨rfl, rfl⟩

variable {stmt : Address}

/-- To tell the actual length of the only element is the same for both. -/
lemma reportSize (h : Mirrored ty size o o' x w w') (size' : Nat) :
    Parallel (Mirrored ty size o o' x) (o.reportSize stmt 1 size') (o'.reportSize stmt 1 size') w w' := by
  unfold BindObject.reportSize
  rw [h.twins.name]
  exact Parallel.require h.library fun l => h.ofLibrary l

lemma askSize (h : Mirrored ty size o o' x w w') (limit : Nat) :
    Parallel (Mirrored ty size o o' x) (o.askSize stmt 1 limit) (o'.askSize stmt 1 limit) w w' := by
  unfold BindObject.askSize
  rw [h.twins.name]
  exact (Parallel.require h.library fun l => h.ofLibrary l).bind (fun n v v' hv => .pure hv _) fun _ _ hv => hv

end Mirrored

/-! ### The way in -/

variable {stmt : Address}

/-- To copy a vector of one element of fixed length is to write it into the cell. -/
lemma pushVector_fixed {elemSize : Nat} (h : o'.form = .vector .regular elemSize 1) (hv : ty.isVariable = false)
    (x : Host ty) : o'.pushVector stmt 1 ty [x] = (do
      let w ← MonadState.get
      Act.update (World.writeBuffer o'.buffer 0 (Host.writeElement ty x (o'.cell 0 w)).2)
      Act.note (.pushedElements o'.name 1 1)) := by
  have hcount : o'.count 1 1 = 1 := by
    simp only [BindPlan.count, h]
    rfl
  unfold pushVector
  simp only [List.length_singleton, hcount, List.take_succ_cons, List.take_zero, pushFrom, Nat.zero_mul, hv,
    Bool.false_eq_true, if_false, bind_assoc, bind_pure_unit]

/-- To copy one of variable length is to tell its length, too. -/
lemma pushVector_variable {elemSize : Nat} (h : o'.form = .vector .regular elemSize 1) (hv : ty.isVariable = true)
    (x : Host ty) : o'.pushVector stmt 1 ty [x] = (do
      let w ← MonadState.get
      Act.update (World.writeBuffer o'.buffer 0 (Host.writeElement ty x (o'.cell 0 w)).2)
      o'.reportSize stmt 1 (Host.writeElement ty x (o'.cell 0 w)).1
      Act.note (.pushedElements o'.name 1 1)) := by
  have hcount : o'.count 1 1 = 1 := by
    simp only [BindPlan.count, h]
    rfl
  unfold pushVector
  simp only [List.length_singleton, hcount, List.take_succ_cons, List.take_zero, pushFrom, Nat.zero_mul, hv, if_true,
    bind_assoc, pure_bind, Nat.zero_add]

namespace Mirrored

/-- A value of fixed length fills the cell in both. -/
lemma pushCell (h : Mirrored ty size o o' x w w') (hv : ty.isVariable = false) :
    Parallel (Mirrored ty size o o' x) (o.pushCell ty x) (o'.pushVector stmt 1 ty [x]) w w' := by
  obtain ⟨length, hl⟩ := ValueType.size?_of_fixed hv
  have hcell : (o'.cell 0 w').length = length := by
    rw [h.cell.2, h.whole, ValueType.stride, hl]
    rfl
  rw [pushVector_fixed h.twins.vector hv]
  refine .getRight ?_
  rw [Host.writeElement_of_fixed hv hl x hcell]
  exact (Parallel.update (h.writeBuffer 0 (Host.bytes ty x))).bind (fun _ v v' hv => .update (hv.note _ _))
    fun _ _ hv => hv

/-- A value of variable length is cut and ended in both, and the same length is told. -/
lemma pushText (h : Mirrored ty size o o' x w w') (hv : ty.isVariable = true) :
    Parallel (Mirrored ty size o o' x) (o.pushText stmt size ty x) (o'.pushVector stmt 1 ty [x]) w w' := by
  have hcell : (o'.cell 0 w').length = size + 1 := by rw [h.cell.2, h.whole, ValueType.stride_of_variable hv]
  have hone : min (size + 1) 1 = 1 := by omega
  obtain ⟨hcount, hbytes⟩ := Host.writeElement_eq_fill hv x (o'.cell 0 w')
  rw [hcell, Nat.add_sub_cancel] at hcount hbytes
  rw [hone] at hbytes
  rw [pushVector_variable h.twins.vector hv]
  refine .getRight ?_
  rw [hcount, hbytes]
  refine (Parallel.update (h.writeBuffer 0 ((Host.fill ty x size).2 ++ [0]))).bind (fun _ v v' hv => ?_)
    fun _ _ hv => hv
  exact (hv.reportSize _).bind (fun _ u u' hu => .update (hu.note _ _)) fun _ _ hu => hu

/-- To push both objects comes to the same. -/
theorem push (h : Mirrored ty size o o' x w w') (stmt : Address) :
    Parallel (Mirrored ty size o o' x) (o.push stmt 1) (o'.push stmt 1) w w' := by
  unfold BindObject.push
  refine .get ?_
  rw [h.single, h.vector, h.twins.single, h.twins.direction]
  cases hv : ty.isVariable with
  | true =>
    have hhandle : ty.isHandle = false := by cases ty <;> first | rfl | cases hv
    simp only [if_true, hhandle, Bool.or_false]
    split
    · exact h.pushText hv
    · exact .pure h _
  | false =>
    simp only [Bool.false_eq_true, if_false]
    split
    · exact h.pushCell hv
    · exact .pure h _

end Mirrored

/-! ### The way out -/

/-- What is read from a cell comes to a variable, unless it stands for no value. -/
def arrive (o : BindObject) (hold : Host ty → HostVar) (n : Notice) (bytes : List UInt8) : Act Unit :=
  match Host.ofBytes? ty bytes with
  | none => throw (.conversion ty)
  | some y => do
    Act.update (World.setVar o.var (hold y))
    Act.note n

/-- To copy a vector of one element of fixed length back is to read the cell. -/
lemma pullVector_fixed {elemSize : Nat} (h : o'.form = .vector .regular elemSize 1) (hv : ty.isVariable = false)
    (x : Host ty) : o'.pullVector stmt 1 ty [x] = (do
      let w ← MonadState.get
      o'.arrive (fun y => .vector ty [y]) (.pulledElements o'.name 1) ((o'.cell 0 w).take o'.elemSize)) := by
  have hcount : o'.count 1 1 = 1 := by
    simp only [BindPlan.count, h]
    rfl
  unfold pullVector arrive
  simp only [List.length_singleton, hcount, pullFrom, hv, Bool.false_eq_true, if_false, bind_assoc, pure_bind]
  refine bind_congr fun w => ?_
  cases Host.ofBytes? ty ((o'.cell 0 w).take o'.elemSize) <;> rfl

/-- To copy one of variable length back is to ask for the actual length before. -/
lemma pullVector_variable {elemSize : Nat} (h : o'.form = .vector .regular elemSize 1) (hv : ty.isVariable = true)
    (x : Host ty) : o'.pullVector stmt 1 ty [x] = (do
      let size ← o'.askSize stmt 1 (o'.elemSize - 1)
      let w ← MonadState.get
      o'.arrive (fun y => .vector ty [y]) (.pulledElements o'.name 1) ((o'.cell 0 w).take size)) := by
  have hcount : o'.count 1 1 = 1 := by
    simp only [BindPlan.count, h]
    rfl
  unfold pullVector arrive
  simp only [List.length_singleton, hcount, pullFrom, hv, if_true, bind_assoc, Nat.zero_add]
  refine bind_congr fun size => bind_congr fun w => ?_
  cases Host.ofBytes? ty ((o'.cell 0 w).take size) <;> rfl

namespace Mirrored

/-- The same bytes bring the same value to both variables, or fail in both. -/
lemma arrive (h : Mirrored ty size o o' x w w') (n n' : Notice) (bytes : List UInt8) :
    Parallel (fun v v' => ∃ y, Mirrored ty size o o' y v v') (o.arrive (.single ty) n bytes)
      (o'.arrive (fun y => .vector ty [y]) n' bytes) w w' := by
  unfold BindObject.arrive
  cases Host.ofBytes? ty bytes with
  | none => exact .throw ⟨x, h⟩ _
  | some y =>
    exact (Parallel.update (h.setVar y)).bind (fun _ v v' hv => .update ⟨y, hv.note _ _⟩) fun _ _ hv => ⟨y, hv⟩

lemma pullCell (h : Mirrored ty size o o' x w w') (hv : ty.isVariable = false) :
    Parallel (fun v v' => ∃ y, Mirrored ty size o o' y v v') (o.pullCell ty) (o'.pullVector stmt 1 ty [x]) w w' := by
  have hall : (w.bufferBytes o.buffer).take o'.elemSize = w.bufferBytes o.buffer :=
    List.take_of_length_le (by rw [h.whole, h.twins.elemSize_vector])
  rw [pullVector_fixed h.twins.vector hv]
  refine .get ?_
  rw [h.cell.1, h.cell.2, hall]
  exact h.arrive _ _ _

lemma pullText (h : Mirrored ty size o o' x w w') (hv : ty.isVariable = true) :
    Parallel (fun v v' => ∃ y, Mirrored ty size o o' y v v') (o.pullText stmt size ty)
      (o'.pullVector stmt 1 ty [x]) w w' := by
  have hlimit : o'.elemSize - 1 = size := by
    rw [h.twins.elemSize_vector, ValueType.stride_of_variable hv, Nat.add_sub_cancel]
  rw [pullVector_variable h.twins.vector hv, hlimit]
  refine (h.askSize size).bind (fun n v v' hv => .get ?_) fun _ _ hv => ⟨x, hv⟩
  rw [hv.cell.1, hv.cell.2]
  exact hv.arrive _ _ _

/-- To pull both objects comes to the same, also when it fails. -/
theorem pull (h : Mirrored ty size o o' x w w') (stmt : Address) :
    Parallel (fun v v' => ∃ y, Mirrored ty size o o' y v v') (o.pull stmt 1) (o'.pull stmt 1) w w' := by
  unfold BindObject.pull
  rw [h.twins.direction]
  split
  · refine .get ?_
    rw [h.single, h.vector, h.twins.single]
    cases hv : ty.isVariable with
    | true => exact h.pullText hv
    | false => exact h.pullCell hv
  · exact .pure ⟨x, h⟩ _

end Mirrored

/-! ### Histories -/

/-- What can happen to an object and its variable: the application gives the variable a value, the native library
writes to the buffer and changes in any way, or the object is pushed or pulled. -/
inductive ObjectStep (ty : ValueType) where
  | assign (x : Host ty)
  | native (offset : Nat) (bytes : List UInt8) (library : Library)
  | push
  | pull

/-- What happens in the case of an object whose variable holds values in some way. -/
def ObjectStep.act (o : BindObject) (hold : Host ty → HostVar) (stmt : Address) : ObjectStep ty → Act Unit
  | assign x => Act.update (World.setVar o.var (hold x))
  | native offset bytes l => Act.update fun w => { w.writeBuffer o.buffer offset bytes with library := l }
  | push => o.push stmt 1
  | pull => o.pull stmt 1

/-- The results of all that happens, and the world at the end; what fails does not stop what comes after it. -/
def history (o : BindObject) (hold : Host ty → HostVar) (stmt : Address) :
    List (ObjectStep ty) → World → List (Except ClientError Unit) × World
  | [], w => ([], w)
  | step :: rest, w =>
    let (r, v) := (step.act o hold stmt).run w
    let (rs, u) := history o hold stmt rest v
    (r :: rs, u)

namespace Mirrored

/-- One thing that happens keeps twins alike. -/
lemma step (h : Mirrored ty size o o' x w w') (stmt : Address) (d : ObjectStep ty) :
    Parallel (fun v v' => ∃ y, Mirrored ty size o o' y v v') (d.act o (.single ty) stmt)
      (d.act o' (fun y => .vector ty [y]) stmt) w w' := by
  cases d with
  | assign y => exact .update ⟨y, h.setVar y⟩
  | native offset bytes l => exact .update ⟨x, (h.writeBuffer offset bytes).ofLibrary l⟩
  | push =>
    obtain ⟨hr, hv⟩ := h.push stmt
    exact ⟨hr, x, hv⟩
  | pull => exact h.pull stmt

/-- Whatever happens, it ends alike for twins. -/
theorem history (stmt : Address) (ds : List (ObjectStep ty)) (h : Mirrored ty size o o' x w w') :
    (o.history (.single ty) stmt ds w).1 = (o'.history (fun y => .vector ty [y]) stmt ds w').1 ∧
      ∃ y, Mirrored ty size o o' y (o.history (.single ty) stmt ds w).2
        (o'.history (fun y => .vector ty [y]) stmt ds w').2 := by
  induction ds generalizing x w w' with
  | nil => exact ⟨rfl, x, h⟩
  | cons d rest ih =>
    obtain ⟨hr, y, hy⟩ := h.step stmt d
    obtain ⟨hrs, z, hz⟩ := ih hy
    exact ⟨List.cons_eq_cons.mpr ⟨hr, hrs⟩, z, hz⟩

end Mirrored
end BindObject
end DbClient
