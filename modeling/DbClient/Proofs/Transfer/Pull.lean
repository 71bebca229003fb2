import DbClient.Proofs.Transfer.Exchange
import DbClient.Proofs.Transfer.Native

/-! The way out of the buffers, from any memory and with any actual lengths. A variable keeps its type, and a
vector its length; what becomes of an element is settled by the last object that brings it. -/
namespace DbClient
open Act World

namespace World
variable {w w' w'' : World} {stmt : Address} {arraySize : Nat} {os : List BindObject} {o : BindObject}

/-- No object brings an element to a variable of the given length. -/
def Spared (os : List BindObject) (arraySize var length i : Nat) : Prop :=
  ∀ o ∈ os, o.direction.isOut → o.var = var → ¬o.Covers arraySize length i

/-- Some objects may have been unloaded, and nothing else has changed: variables keep what none of the objects
brings, their types, and the lengths of vectors. -/
structure Unloads (stmt : Address) (arraySize : Nat) (os : List BindObject) (w w' : World) : Prop where
  library : w.library.Resizes stmt [] w'.library
  memory : w'.memory = w.memory
  others : ∀ x, (∀ o ∈ os, o.direction.isOut → o.var ≠ x) → w'.vars.get? x = w.vars.get? x
  singles : ∀ x ty y, w.vars.get? x = some (.single ty y) → ∃ z, w'.vars.get? x = some (.single ty z)
  vectors : ∀ x ty ys, w.vars.get? x = some (.vector ty ys) → ∃ zs, w'.vars.get? x = some (.vector ty zs) ∧
    zs.length = ys.length ∧ ∀ i, Spared os arraySize x ys.length i → zs[i]? = ys[i]?

namespace Unloads

lemma of_eq (library : w.library.Resizes stmt [] w'.library) (memory : w'.memory = w.memory)
    (vars : w'.vars = w.vars) : Unloads stmt arraySize os w w' :=
  ⟨library, memory, fun _ _ => by rw [vars], fun x ty y h => ⟨y, vars ▸ h⟩,
    fun x ty ys h => ⟨ys, vars ▸ h, rfl, fun _ _ => rfl⟩⟩

lemma refl (w : World) : Unloads stmt arraySize os w w := of_eq (.refl _) rfl rfl

lemma trans (h : Unloads stmt arraySize os w w') (h' : Unloads stmt arraySize os w' w'') :
    Unloads stmt arraySize os w w'' := by
  refine ⟨h.library.trans h'.library, h'.memory.trans h.memory,
    fun x hx => (h'.others x hx).trans (h.others x hx), fun x ty y hy => ?_, fun x ty xs hxs => ?_⟩
  · obtain ⟨z, hz⟩ := h.singles x ty y hy
    exact h'.singles x ty z hz
  · obtain ⟨ys, hys, hlen, hkept⟩ := h.vectors x ty xs hxs
    obtain ⟨zs, hzs, hlen', hkept'⟩ := h'.vectors x ty ys hys
    exact ⟨zs, hzs, hlen'.trans hlen, fun i hi => (hkept' i (hlen ▸ hi)).trans (hkept i hi)⟩

instance : Std.Refl (Unloads stmt arraySize os) := ⟨refl⟩

instance : IsTrans World (Unloads stmt arraySize os) := ⟨fun _ _ _ => trans⟩

lemma note (n : Notice) : Does (Unloads stmt arraySize os) (Act.note n) w := of_eq (.refl _) rfl rfl

lemma require {α : Type} {dress : ClientError → ClientError} {f : Library → Option α × Library}
    (hf : ∀ l : Library, l.Resizes stmt [] (f l).2) : Does (Unloads stmt arraySize os) (Act.require dress f) w :=
  Does.require (of_eq (hf w.library) rfl rfl) fun _ => of_eq (.of_eq rfl rfl) rfl rfl

/-- A value of the same type comes to a variable. -/
lemma setSingle (ho : o ∈ os) (hout : o.direction.isOut) {ty : ValueType} {x : Host ty}
    (hv : w.vars.get? o.var = some (.single ty x)) (y : Host ty) :
    Unloads stmt arraySize os w (w.setVar o.var (.single ty y)) := by
  refine ⟨.refl _, rfl, fun x hx => ?_, fun x ty' z hz => ?_, fun x ty' zs hzs => ?_⟩
  · rw [get?_setVar hv, if_neg (hx o ho hout)]
  · rw [get?_setVar hv]
    split
    · rename_i he
      rw [← he, hv] at hz
      cases hz
      exact ⟨y, rfl⟩
    · exact ⟨z, hz⟩
  · rw [get?_setVar hv, if_neg]
    · exact ⟨zs, hzs, rfl, fun _ _ => rfl⟩
    · rintro rfl
      rw [hv] at hzs
      cases hzs

/-- An element that takes part comes to a vector. -/
lemma setElement (ho : o ∈ os) (hout : o.direction.isOut) {ty : ValueType} {xs : List (Host ty)} {i : Nat}
    (hv : w.vars.get? o.var = some (.vector ty xs)) (hi : o.Covers arraySize xs.length i) (y : Host ty) :
    Unloads stmt arraySize os w (w.setVar o.var (.vector ty (xs.set i y))) := by
  refine ⟨.refl _, rfl, fun x hx => ?_, fun x ty' z hz => ?_, fun x ty' zs hzs => ?_⟩
  · rw [get?_setVar hv, if_neg (hx o ho hout)]
  · rw [get?_setVar hv, if_neg]
    · exact ⟨z, hz⟩
    · rintro rfl
      rw [hv] at hz
      cases hz
  · rw [get?_setVar hv]
    split
    · rename_i he
      rw [← he, hv] at hzs
      cases hzs
      refine ⟨_, rfl, List.length_set, fun j hj => ?_⟩
      have hne : i ≠ j := fun e => hj o ho hout he (e ▸ hi)
      exact List.getElem?_set_ne hne
    · exact ⟨zs, hzs, rfl, fun _ _ => rfl⟩

end Unloads
end World

namespace BindObject
variable {w v : World} {stmt : Address} {arraySize : Nat} {o : BindObject} {os : List BindObject} {ty : ValueType}

/-! ### What unloading leaves alone -/

lemma unloads_unloading (ho : o ∈ os) : Unloading (Unloads stmt arraySize os) (fun _ => True) stmt arraySize o where
  lasts _ _ _ _ := trivial
  ask _ pos _ _ := (Unloads.require fun l => Library.resizes_dataSize stmt o.name pos l).seq fun _ _ _ => Does.pure _
  single _ _ _ y hout hv := Unloads.setSingle ho hout hv y
  element _ _ _ _ y hout hv hi := Unloads.setElement ho hout hv hi y
  note _ n := Unloads.note n

lemma unloads_exchangeAll (arraySize : Nat) (os : List BindObject) (w : World) :
    Does (Unloads stmt arraySize os) (exchangeAll (fun o => o.pull stmt arraySize) os) w :=
  does_exchangeAll (fun _ _ _ _ => trivial) (fun _ ho _ hw => (unloads_unloading ho).pull hw) trivial

/-! ### What comes out -/

/-- A value is what comes out of the cell of an element: it decodes a cell of fixed length as a whole, and otherwise
as many bytes as the actual length says, though never the last byte of the cell. -/
def Brings (o : BindObject) (stmt : Address) (w : World) (i : Nat) (x : Host o.ty) : Prop :=
  if o.ty.isVariable then ∃ b, w.library.bound? stmt o.name = some b ∧
    Host.ofBytes? o.ty ((o.cell i w).take (min (b.sizeAt (i + 1)) (o.elemSize - 1))) = some x
  else Host.ofBytes? o.ty (o.cell i w) = some x

lemma cell_of_memory (h : v.memory = w.memory) (i : Nat) : o.cell i v = o.cell i w := by
  rw [cell, cell, bufferBytes, bufferBytes, h]

/-- What comes out of a cell is settled by the memory and by what the library knows. -/
lemma Brings.congr {i : Nat} {x : Host o.ty} (h : o.Brings stmt v i x) (hm : v.memory = w.memory)
    (hb : v.library.bound? stmt o.name = w.library.bound? stmt o.name) : o.Brings stmt w i x := by
  unfold Brings at h ⊢
  rw [cell_of_memory hm, hb] at h
  exact h

/-- The answer to a question for the length of an element settles what comes out of its cell. -/
lemma brings_of_askLength {i n : Nat} (h : (o.askLength stmt o.ty i).run w = (.ok n, v)) :
    (∃ l, w.library.Resizes stmt [] l ∧ v = { w with library := l }) ∧
      ∀ x, Host.ofBytes? o.ty ((o.cell i w).take n) = some x → o.Brings stmt w i x := by
  obtain ⟨l, rfl, hn⟩ := ok_of_askLength h
  by_cases hv : o.ty.isVariable = true
  · rw [if_pos hv] at hn
    obtain ⟨size, hl, rfl⟩ := hn
    obtain ⟨b, hb, -, rfl⟩ := Library.dataSize_some hl
    have hres : w.library.Resizes stmt [] l := Library.resizes_of_dataSize stmt hl
    refine ⟨⟨l, hres, rfl⟩, fun x hx => ?_⟩
    rw [Brings, if_pos hv]
    exact ⟨b, hb, hx⟩
  · rw [if_neg hv] at hn
    obtain ⟨rfl, rfl⟩ := hn
    refine ⟨⟨w.library, .refl _, rfl⟩, fun x hx => ?_⟩
    have hwhole : (o.cell i w).take o.elemSize = o.cell i w := List.take_of_length_le (by
      rw [cell, slice]
      exact List.length_take_le _ _)
    rw [Brings, if_neg hv, ← hwhole]
    exact hx

/-- A step that decodes bytes and succeeds has gone on with their value. -/
lemma ok_of_decoding {ty : ValueType} {bytes : World → List UInt8} {next : Host ty → Act Unit}
    (h : (do match Host.ofBytes? ty (bytes (← get)) with
      | none => throw (.conversion ty)
      | some y => next y : Act Unit).run w = (.ok (), v)) :
    ∃ y, Host.ofBytes? ty (bytes w) = some y ∧ (next y).run w = (.ok (), v) := by
  rw [run_bind, run_get] at h
  dsimp only at h
  split at h
  · cases h
  · exact ⟨_, ‹_›, h⟩

/-- The elements whose turn it is come out of their cells, and those before them stay. -/
theorem brings_of_pullFrom {xs : List (Host o.ty)} {i count : Nat}
    (hv : w.vars.get? o.var = some (.vector o.ty xs))
    (h : (o.pullFrom stmt o.ty xs i count).run w = (.ok (), v)) :
    ∃ ys, v.vars.get? o.var = some (.vector o.ty ys) ∧ (∀ j, j < i → ys[j]? = xs[j]?) ∧
      ∀ j, i ≤ j → j < i + count → j < xs.length → ∃ y, ys[j]? = some y ∧ o.Brings stmt w j y := by
  induction count generalizing w xs i with
  | zero =>
    obtain ⟨-, rfl⟩ := Prod.mk.inj h
    exact ⟨xs, hv, fun _ _ => rfl, fun j _ _ _ => by omega⟩
  | succ count ih =>
    rw [pullFrom_succ] at h
    obtain ⟨n, u, hask, h⟩ := ok_of_bind h
    obtain ⟨⟨l, hres, rfl⟩, hbrings⟩ := brings_of_askLength hask
    obtain ⟨y, hy, h⟩ := ok_of_decoding h
    rw [run_bind, run_update] at h
    have hset : (World.setVar o.var (.vector o.ty (xs.set i y)) { w with library := l }).vars.get? o.var =
        some (.vector o.ty (xs.set i y)) := (get?_setVar hv).trans (if_pos rfl)
    obtain ⟨ys, hys, hbefore, hlater⟩ := ih hset h
    refine ⟨ys, hys, fun j hj => ?_, fun j hij hj hlen => ?_⟩
    · rw [hbefore j (by omega), List.getElem?_set_ne (by omega)]
    · by_cases he : j = i
      · subst he
        exact ⟨y, by rw [hbefore j (by omega), List.getElem?_set_self hlen], hbrings y hy⟩
      · obtain ⟨z, hz, hother⟩ := hlater j (by omega) (by omega) (by rwa [List.length_set])
        exact ⟨z, hz, hother.congr rfl (hres.entries stmt o.name (by simp))⟩

lemma decoded_of_pullCell {x : Host ty} (hv : w.vars.get? o.var = some (.single ty x))
    (h : (o.pullCell ty).run w = (.ok (), v)) :
    ∃ y, v.vars.get? o.var = some (.single ty y) ∧ Host.ofBytes? ty (o.cell 0 w) = some y := by
  obtain ⟨y, hy, h⟩ := ok_of_decoding h
  obtain ⟨-, rfl⟩ := Prod.mk.inj h
  exact ⟨y, (get?_setVar hv).trans (if_pos rfl), hy⟩

lemma decoded_of_pullText {size : Nat} {x : Host ty} (hv : w.vars.get? o.var = some (.single ty x))
    (h : (o.pullText stmt size ty).run w = (.ok (), v)) :
    ∃ y b, v.vars.get? o.var = some (.single ty y) ∧ w.library.bound? stmt o.name = some b ∧
      Host.ofBytes? ty ((o.cell 0 w).take (min (b.sizeAt 1) size)) = some y := by
  obtain ⟨n, u, hask, h⟩ := ok_of_bind h
  obtain ⟨size, l, hl, rfl, rfl⟩ := ok_of_askSize hask
  obtain ⟨b, hb, -, rfl⟩ := Library.dataSize_some hl
  obtain ⟨y, hy, h⟩ := ok_of_decoding h
  obtain ⟨-, rfl⟩ := Prod.mk.inj h
  exact ⟨y, b, (get?_setVar (w := { w with library := l }) hv).trans (if_pos rfl), hb, hy⟩

lemma brings_of_pullVector {xs : List (Host o.ty)} (hv : w.vars.get? o.var = some (.vector o.ty xs))
    (h : (o.pullVector stmt arraySize o.ty xs).run w = (.ok (), v)) {i : Nat} (hi : o.Covers arraySize xs.length i)
    (hlen : i < xs.length) :
    ∃ ys y, v.vars.get? o.var = some (.vector o.ty ys) ∧ ys[i]? = some y ∧ o.Brings stmt w i y := by
  obtain ⟨_, u, hpull, hnote⟩ := ok_of_bind h
  obtain ⟨-, rfl⟩ := Prod.mk.inj hnote
  obtain ⟨ys, hys, -, hfound⟩ := brings_of_pullFrom hv hpull
  obtain ⟨y, hy, hbrings⟩ := hfound i (Nat.zero_le i) (by simpa using BindPlan.covers_iff.mp hi) hlen
  exact ⟨ys, y, hys, hy, hbrings⟩

/-- What has become of the variables after all objects have been unloaded, in the order in which they were bound. A
variable is taken to be of the type with which it was bound. -/
structure Delivers (os : List BindObject) (stmt : Address) (arraySize : Nat) (w v : World) : Prop where
  /-- A variable that no object brings out is unchanged. -/
  others : ∀ x, (∀ o ∈ os, o.direction.isOut → o.var ≠ x) → v.vars.get? x = w.vars.get? x
  /-- A single value of fixed length is decoded from the cell of the last object that brings it out. -/
  cell : ∀ before o after x, os = before ++ o :: after → o.direction.isOut → o.form = .cell →
    w.vars.get? o.var = some (.single o.ty x) → (∀ p ∈ after, p.direction.isOut → p.var ≠ o.var) →
    ∃ y, v.vars.get? o.var = some (.single o.ty y) ∧ Host.ofBytes? o.ty (o.cell 0 w) = some y
  /-- A text or a byte string is decoded from as many bytes as the actual length says, within the declared size. -/
  text : ∀ before o after size x, os = before ++ o :: after → o.direction.isOut → o.form = .text size →
    w.vars.get? o.var = some (.single o.ty x) → (∀ p ∈ after, p.direction.isOut → p.var ≠ o.var) →
    ∃ y b, v.vars.get? o.var = some (.single o.ty y) ∧ w.library.bound? stmt o.name = some b ∧
      Host.ofBytes? o.ty ((o.cell 0 w).take (min (b.sizeAt 1) size)) = some y
  /-- A vector keeps its length, and the elements that no object brings out. -/
  vector : ∀ x ty xs, w.vars.get? x = some (.vector ty xs) → ∃ ys, v.vars.get? x = some (.vector ty ys) ∧
    ys.length = xs.length ∧ ∀ i, Spared os arraySize x xs.length i → ys[i]? = xs[i]?
  /-- Any other element comes out of the cell of the last object that brings it out. -/
  element : ∀ before o after xs i, os = before ++ o :: after → o.direction.isOut →
    w.vars.get? o.var = some (.vector o.ty xs) → i < xs.length → o.Covers arraySize xs.length i →
    Spared after arraySize o.var xs.length i →
    ∃ ys y, v.vars.get? o.var = some (.vector o.ty ys) ∧ ys[i]? = some y ∧ o.Brings stmt w i y

/-- What is delivered depends on the memory, on what the library knows, and on the variables. -/
lemma Delivers.congr {w' v' : World} (h : Delivers os stmt arraySize w v) (hm : w'.memory = w.memory)
    (hl : w'.library = w.library) (hv : w'.vars = w.vars) (hv' : v'.vars = v.vars) :
    Delivers os stmt arraySize w' v' := by
  cases w
  cases w'
  cases v
  cases v'
  dsimp only at hm hl hv hv'
  subst hm hl hv hv'
  exact ⟨h.others, h.cell, h.text, h.vector, h.element⟩

/-- Objects that have been unloaded have delivered their variables, whatever has come to the buffers. -/
theorem delivers_of_exchangeAll (h : (exchangeAll (fun o => o.pull stmt arraySize) os).run w = (.ok (), v)) :
    Delivers os stmt arraySize w v := by
  have hall : Unloads stmt arraySize os w v := (unloads_exchangeAll arraySize os w).rel h
  have hsplit : ∀ before o after, os = before ++ o :: after → o.direction.isOut → ∃ u u',
      Unloads stmt arraySize before w u ∧ (o.pull stmt arraySize).run u = (.ok (), u') ∧
        Unloads stmt arraySize after u' v := by
    rintro before o after rfl -
    obtain ⟨u, u', hbefore, hown, hafter⟩ := ok_of_exchangeAll_append h
    exact ⟨u, u', (unloads_exchangeAll arraySize before w).rel hbefore, hown,
      (unloads_exchangeAll arraySize after u').rel hafter⟩
  refine ⟨hall.others, fun before o after x hos hout hform hx hlast => ?_,
    fun before o after size x hos hout hform hx hlast => ?_, hall.vectors,
    fun before o after xs i hos hout hxs hlen hi hlast => ?_⟩
  · obtain ⟨u, u', hbefore, hown, hafter⟩ := hsplit before o after hos hout
    obtain ⟨z, hz⟩ := hbefore.singles o.var o.ty x hx
    unfold pull at hown
    rw [if_pos hout, run_bind, run_get] at hown
    simp only [hz, hform] at hown
    obtain ⟨y, hy, hdec⟩ := decoded_of_pullCell hz hown
    exact ⟨y, (hafter.others o.var hlast).trans hy, cell_of_memory hbefore.memory 0 ▸ hdec⟩
  · obtain ⟨u, u', hbefore, hown, hafter⟩ := hsplit before o after hos hout
    obtain ⟨z, hz⟩ := hbefore.singles o.var o.ty x hx
    unfold pull at hown
    rw [if_pos hout, run_bind, run_get] at hown
    simp only [hz, hform] at hown
    obtain ⟨y, b, hy, hb, hdec⟩ := decoded_of_pullText hz hown
    rw [hbefore.library.entries stmt o.name (by simp)] at hb
    exact ⟨y, b, (hafter.others o.var hlast).trans hy, hb, cell_of_memory hbefore.memory 0 ▸ hdec⟩
  · obtain ⟨u, u', hbefore, hown, hafter⟩ := hsplit before o after hos hout
    obtain ⟨zs, hzs, hzlen, -⟩ := hbefore.vectors o.var o.ty xs hxs
    have hkept : Unloads stmt arraySize [o] u u' :=
      ((unloads_unloading (List.mem_singleton_self o)).pull trivial).rel hown
    unfold pull at hown
    rw [if_pos hout, run_bind, run_get] at hown
    simp only [hzs] at hown
    obtain ⟨ys, y, hys, hy, hbrings⟩ := brings_of_pullVector hzs hown (hzlen ▸ hi) (hzlen ▸ hlen)
    obtain ⟨ys', hys', hylen, -⟩ := hkept.vectors o.var o.ty zs hzs
    obtain rfl : ys' = ys := by
      rw [hys] at hys'
      simpa using hys'.symm
    obtain ⟨vs, hvs, -, hlate⟩ := hafter.vectors o.var o.ty ys' hys
    refine ⟨vs, y, hvs, (hlate i ?_).trans hy,
      hbrings.congr hbefore.memory (hbefore.library.entries stmt o.name (by simp))⟩
    rw [hylen, hzlen]
    exact hlast

end BindObject
end DbClient
