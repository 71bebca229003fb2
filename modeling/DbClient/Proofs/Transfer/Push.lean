import DbClient.Proofs.Bindings.Tables
import DbClient.Proofs.Transfer.Exchange
import DbClient.Proofs.Transfer.Native

/-! The way into the buffers. To load an object touches its own buffer and the actual lengths of its own
elements; after it the native library finds in each element that took part what the variable holds, as far as it
fits. -/
namespace DbClient
open Act World

namespace World
variable {w w' w'' : World} {stmt : Address} {os : List BindObject} {o : BindObject}

/-- What the native library finds in an element of a bound variable. -/
def seen? (w : World) (stmt : Address) (name : String) (pos : Nat) : Option (List UInt8) :=
  (w.library.bound? stmt name).bind fun b => b.data? w.memory pos

/-- Some objects may have been loaded, and nothing else that an execution goes by has changed. -/
structure Loads (stmt : Address) (os : List BindObject) (w w' : World) : Prop where
  vars : w'.vars = w.vars
  library : w.library.Resizes stmt (os.map fun o => o.name) w'.library
  lengths : ∀ b, (w'.memory.get? b).map List.length = (w.memory.get? b).map List.length
  others : ∀ b, b ∉ os.map BindObject.buffer → w'.memory.get? b = w.memory.get? b

namespace Loads

lemma of_eq (vars : w'.vars = w.vars) (library : w.library.Resizes stmt (os.map fun o => o.name) w'.library)
    (memory : w'.memory = w.memory) : Loads stmt os w w' :=
  ⟨vars, library, fun _ => by rw [memory], fun _ _ => by rw [memory]⟩

lemma refl (w : World) : Loads stmt os w w := of_eq rfl (.refl _) rfl

lemma trans (h : Loads stmt os w w') (h' : Loads stmt os w' w'') : Loads stmt os w w'' :=
  ⟨h'.vars.trans h.vars, h.library.trans h'.library, fun b => (h'.lengths b).trans (h.lengths b),
    fun b hb => (h'.others b hb).trans (h.others b hb)⟩

instance : Std.Refl (Loads stmt os) := ⟨refl⟩

instance : IsTrans World (Loads stmt os) := ⟨fun _ _ _ => trans⟩

lemma note (n : Notice) : Does (Loads stmt os) (Act.note n) w := of_eq rfl (.refl _) rfl

lemma writes (ho : o ∈ os) (offset : Nat) (bytes : List UInt8) :
    Does (Loads stmt os) (update (World.writeBuffer o.buffer offset bytes)) w := by
  have hget : ∀ b, (w.writeBuffer o.buffer offset bytes).memory.get? b =
      if o.buffer = b then (w.memory.get? b).map (overlay · offset bytes) else w.memory.get? b := fun b =>
    Table.get?_modify _ _ _ _
  refine ⟨rfl, .refl _, fun b => ?_, fun b hb => ?_⟩
  · rw [run_update, hget]
    split
    · rw [Option.map_map]
      exact congrFun (congrArg Option.map (funext fun old => length_overlay old offset bytes)) _
    · rfl
  · have hne : o.buffer ≠ b := fun e => hb (e ▸ List.mem_map_of_mem ho)
    exact (hget b).trans (if_neg hne)

lemma require {α : Type} {dress : ClientError → ClientError} {f : Library → Option α × Library}
    (hf : ∀ l : Library, l.Resizes stmt (os.map fun o => o.name) (f l).2) :
    Does (Loads stmt os) (Act.require dress f) w :=
  Does.require (of_eq rfl (hf w.library) rfl) fun _ => of_eq rfl (.of_eq rfl rfl) rfl

end Loads
end World

namespace BindObject
variable {w v : World} {stmt : Address} {o : BindObject} {os : List BindObject}

/-! ### What loading leaves alone -/

lemma loads_loading (ho : o ∈ os) : Loading (Loads stmt os) (fun _ => True) stmt o where
  lasts _ _ _ _ := trivial
  write _ offset bytes := Loads.writes ho offset bytes
  report _ pos size _ := Loads.require fun l =>
    Library.resizes_setDataSize (List.mem_map.mpr ⟨o, ho, rfl⟩) pos size l
  note _ n := Loads.note n

lemma loads_exchangeAll (arraySize : Nat) (os : List BindObject) (w : World) :
    Does (Loads stmt os) (exchangeAll (fun o => o.push stmt arraySize) os) w :=
  does_exchangeAll (fun _ _ _ _ => trivial) (fun _ ho _ hw => (loads_loading ho).push hw arraySize) trivial

/-! ### Objects on both sides -/

/-- The buffer of an object is there in full length, and the native library has an entry for the object. -/
structure Stands (o : BindObject) (stmt : Address) (w : World) : Prop where
  buffer : ∃ bytes, w.memory.get? o.buffer = some bytes ∧ bytes.length = o.elemSize * o.elemCount
  entry : ∃ b, w.library.bound? stmt o.name = some b ∧ b.frame = (Bound.ofDesc o.desc).frame

/-- What the library finds in an element is its cell, cut to the actual length where there is one. -/
lemma seen?_eq {b : Bound} {bytes : List UInt8} (hb : w.library.bound? stmt o.name = some b)
    (hf : b.frame = (Bound.ofDesc o.desc).frame) (hm : w.memory.get? o.buffer = some bytes) {i : Nat}
    (hi : i < o.elemCount) : w.seen? stmt o.name (i + 1) = some (if o.ty.isVariable
      then (slice bytes (i * o.elemSize) o.elemSize).take (b.sizes.getD i 0)
      else slice bytes (i * o.elemSize) o.elemSize) := by
  obtain ⟨h1, h2, h3, -, -, h6⟩ := describes hf
  rw [seen?, hb, Option.bind_some, Bound.data?_eq (h6 ▸ hm) (h3 ▸ hi), h1, h2]

/-- Loading takes neither buffers nor entries away. -/
lemma Stands.of_loads (hs : o.Stands stmt w) (h : Loads stmt os w v) : o.Stands stmt v := by
  obtain ⟨⟨bytes, hm, hlen⟩, ⟨b, he, hf⟩⟩ := hs
  obtain ⟨bytes', hm', hlen'⟩ := Option.map_eq_some_iff.mp ((h.lengths o.buffer).trans (congrArg _ hm))
  obtain ⟨b', he', hf'⟩ := Option.map_eq_some_iff.mp ((h.library.frames stmt o.name).trans (congrArg _ he))
  exact ⟨⟨bytes', hm', hlen'.trans hlen⟩, ⟨b', he', hf'.trans hf⟩⟩

/-- What the library finds in objects that are not loaded stays the same. -/
lemma Stands.seen_of_loads (hs : o.Stands stmt w) (h : Loads stmt os w v) (hn : o.name ∉ os.map fun o => o.name)
    (hb : o.buffer ∉ os.map BindObject.buffer) (pos : Nat) :
    v.seen? stmt o.name pos = w.seen? stmt o.name pos := by
  obtain ⟨⟨bytes, hm, -⟩, ⟨b, he, hf⟩⟩ := hs
  have hm' : v.memory.get? o.buffer = some bytes := (h.others _ hb).trans hm
  have he' : v.library.bound? stmt o.name = some b := (h.library.entries stmt o.name fun _ => hn).trans he
  obtain ⟨-, -, -, -, -, h6⟩ := describes hf
  simp only [seen?, he, he', Option.bind_some, Bound.data?, Bound.cell?, h6, hm, hm']

/-! ### Elements -/

/-- Bytes are written into one cell, and its actual length is told to the library where there is one. -/
structure Places (o : BindObject) (stmt : Address) (i : Nat) (bytes : List UInt8) (size : Nat) (w v : World) : Prop
    where
  memory : v.memory = w.memory.modify o.buffer fun old => overlay old (i * o.elemSize) bytes
  entry : ∀ b, w.library.bound? stmt o.name = some b → v.library.bound? stmt o.name =
    some (if o.ty.isVariable then b.setSize (i + 1) size else b)

/-- A cell that has been filled holds what was written into it, all other cells what they held before. -/
theorem Places.spec {i size : Nat} {bytes : List UInt8} (h : o.Places stmt i bytes size w v) (hs : o.Stands stmt w)
    (hi : i < o.elemCount) (hlen : bytes.length = o.elemSize) : o.Stands stmt v ∧
      v.seen? stmt o.name (i + 1) = some (if o.ty.isVariable then bytes.take size else bytes) ∧
      ∀ j, j ≠ i → j < o.elemCount → v.seen? stmt o.name (j + 1) = w.seen? stmt o.name (j + 1) := by
  obtain ⟨⟨old, hm, hold⟩, ⟨b, he, hf⟩⟩ := hs
  have hm' : v.memory.get? o.buffer = some (overlay old (i * o.elemSize) bytes) := by
    rw [h.memory, Table.get?_modify, if_pos rfl, hm, Option.map_some]
  have he' := h.entry b he
  have hf' : (if o.ty.isVariable then b.setSize (i + 1) size else b).frame = (Bound.ofDesc o.desc).frame := by
    split
    · rw [Bound.frame_setSize, hf]
    · exact hf
  have hwithin : i * o.elemSize + o.elemSize ≤ o.elemSize * o.elemCount := cell_within hi
  have hsizes := length_sizes hf
  have hself : slice (overlay old (i * o.elemSize) bytes) (i * o.elemSize) o.elemSize = bytes := by
    rw [← hlen]
    exact slice_overlay_self (by rw [hlen, hold]; exact hwithin)
  refine ⟨⟨⟨_, hm', by simpa using hold⟩, ⟨_, he', hf'⟩⟩, ?_, fun j hj hjc => ?_⟩
  · rw [seen?_eq he' hf' hm' hi, hself]
    by_cases hv : o.ty.isVariable = true
    · have hsize : (b.sizes.set i size).getD i 0 = size := by
        simp [List.getD_eq_getElem?_getD, hsizes, hi]
      simp only [hv, if_true, Bound.setSize, Nat.add_sub_cancel, hsize]
    · simp [hv]
  · have hbeside : slice (overlay old (i * o.elemSize) bytes) (j * o.elemSize) o.elemSize =
        slice old (j * o.elemSize) o.elemSize :=
      slice_overlay_beside (by rw [hlen]; exact cells_apart hj)
    rw [seen?_eq he' hf' hm' hjc, seen?_eq he hf hm hjc, hbeside]
    by_cases hv : o.ty.isVariable = true
    · have hsize : (b.sizes.set i size).getD j 0 = b.sizes.getD j 0 := by
        simp [List.getD_eq_getElem?_getD, Ne.symm hj]
      simp only [hv, if_true, Bound.setSize, Nat.add_sub_cancel, hsize]
    · simp [hv]

lemma ok_of_reportSize {pos size : Nat} (h : (o.reportSize stmt pos size).run w = (.ok (), v)) :
    v.memory = w.memory ∧ ∀ b, w.library.bound? stmt o.name = some b →
      v.library.bound? stmt o.name = some (b.setSize pos size) := by
  obtain ⟨l, hl, rfl⟩ := ok_of_require h
  obtain ⟨b, hb, -, hb'⟩ := Library.setDataSize_some hl
  refine ⟨rfl, fun c hc => ?_⟩
  rw [hb] at hc
  obtain rfl := Option.some.inj hc
  exact hb'

/-- To copy elements is to place the first one and to copy the others. -/
lemma ok_of_pushFrom_cons {ty : ValueType} {i : Nat} {x : Host ty} {rest : List (Host ty)} (hty : o.ty = ty)
    (h : (o.pushFrom stmt ty i (x :: rest)).run w = (.ok (), v)) : ∃ u,
      o.Places stmt i (Host.writeElement ty x (o.cell i w)).2 (Host.writeElement ty x (o.cell i w)).1 w u ∧
      (o.pushFrom stmt ty (i + 1) rest).run u = (.ok (), v) := by
  unfold pushFrom at h
  rw [run_bind, run_get] at h
  dsimp only at h
  rw [run_bind, run_update] at h
  dsimp only at h
  by_cases hv : ty.isVariable = true
  · rw [if_pos hv] at h
    obtain ⟨_, u, hreport, hrest⟩ := ok_of_bind h
    obtain ⟨hm, hb⟩ := ok_of_reportSize hreport
    refine ⟨u, ⟨hm, fun b he => ?_⟩, hrest⟩
    rw [hty, if_pos hv]
    exact hb b he
  · rw [if_neg hv] at h
    refine ⟨w.writeBuffer o.buffer (i * o.elemSize) (Host.writeElement ty x (o.cell i w)).2, ⟨rfl, fun b he => ?_⟩, h⟩
    rw [hty, if_neg hv]
    exact he

/-- The cell of an element has the length of an element. -/
lemma Stands.length_cell (hs : o.Stands stmt w) {i : Nat} (hi : i < o.elemCount) :
    (o.cell i w).length = o.elemSize := by
  obtain ⟨⟨bytes, hm, hlen⟩, -⟩ := hs
  rw [cell, bufferBytes, hm, Option.getD_some]
  exact length_slice (hlen ▸ cell_within hi)

/-- Elements that have been copied are found as far as they fit, and those before them as they were. -/
theorem found_of_pushFrom {ty : ValueType} {size i : Nat} {xs : List (Host ty)} (hty : o.ty = ty)
    (hsize : o.elemSize = ty.stride size) (hs : o.Stands stmt w) (hi : i + xs.length ≤ o.elemCount)
    (h : (o.pushFrom stmt ty i xs).run w = (.ok (), v)) :
    (∀ j x, xs[j]? = some x → v.seen? stmt o.name (i + j + 1) = some (Host.bytesWithin size ty x)) ∧
      ∀ j, j < i → v.seen? stmt o.name (j + 1) = w.seen? stmt o.name (j + 1) := by
  induction xs generalizing w i with
  | nil =>
    obtain ⟨-, rfl⟩ := Prod.mk.inj h
    exact ⟨by simp, fun _ _ => rfl⟩
  | cons x rest ih =>
    rw [List.length_cons] at hi
    obtain ⟨u, hplace, hrest⟩ := ok_of_pushFrom_cons hty h
    have hcell := hs.length_cell (i := i) (by omega)
    obtain ⟨hs', hself, hbeside⟩ := hplace.spec hs (by omega) ((Host.length_writeElement _ _ _).trans hcell)
    rw [hty, Host.found_of_writeElement (hcell.trans hsize)] at hself
    obtain ⟨hlater, hbefore⟩ := ih hs' (by omega) hrest
    refine ⟨fun j y hy => ?_, fun j hj => ?_⟩
    · cases j with
      | zero =>
        obtain rfl : x = y := by simpa using hy
        rw [Nat.add_zero, hbefore i (by omega), hself]
      | succ j =>
        rw [show i + (j + 1) + 1 = i + 1 + j + 1 by omega]
        exact hlater j y (by simpa using hy)
    · rw [hbefore j (by omega), hbeside j (by omega) (by omega)]

end BindObject

namespace BindPlan

/-- The form of an object suits its type. -/
def Shaped (o : BindPlan) : Prop :=
  match o.form with
  | .cell => o.ty.isVariable = false
  | .text _ => o.ty.isVariable = true
  | .vector _ elemSize _ => ∃ size, elemSize = o.ty.stride size

lemma MadeFor.shaped {o : BindPlan} {d : StatementData} {w : World} (h : o.MadeFor d w) : o.Shaped := by
  obtain ⟨v, kind, size, -, he⟩ := h
  rw [he]
  cases v with
  | single ty x => by_cases hv : ty.isVariable = true <;> simp [ofVar, single, Shaped, hv]
  | vector ty xs => exact ⟨_, rfl⟩

/-- What is found in the elements of an object is what the variables hold, element by element: values of fixed
length in full, others as far as they fit into the declared size. A variable is taken to be of the type with which it
was bound. -/
structure Arrives (o : BindPlan) (arraySize : Nat) (vars : Table HostVar) (found : Nat → Option (List UInt8)) : Prop
    where
  /-- A single value of fixed length goes in unless it only comes out; a handle goes in always. -/
  cell : ∀ x, o.form = .cell → vars.get? o.var = some (.single o.ty x) → o.direction.isIn ∨ o.ty.isHandle →
    found 0 = some (Host.bytes o.ty x)
  /-- Of a text or a byte string goes in what fits into the declared size. -/
  text : ∀ size x, o.form = .text size → vars.get? o.var = some (.single o.ty x) → o.direction.isIn →
    ∃ bs, found 0 = some bs ∧ Host.Fits size o.ty x bs
  /-- Of a vector go in the elements that take part. -/
  vector : ∀ kind elemSize elemCount xs, o.form = .vector kind elemSize elemCount →
    vars.get? o.var = some (.vector o.ty xs) → o.direction.isIn ∨ o.ty.isHandle →
    ∃ size, elemSize = o.ty.stride size ∧ ∀ i x, xs[i]? = some x → o.Covers arraySize xs.length i →
      ∃ bs, found i = some bs ∧ Host.Fits size o.ty x bs

/-- What an object says of elements it says of those that it has. -/
lemma Arrives.congr {o : BindPlan} {arraySize : Nat} {vars : Table HostVar} {found found' : Nat → Option (List UInt8)}
    (h : o.Arrives arraySize vars found) (he : ∀ i, i < o.elemCount → found' i = found i) :
    o.Arrives arraySize vars found' := by
  refine ⟨fun x hform hvar hdir => ?_, fun size x hform hvar hdir => ?_,
    fun kind elemSize elemCount xs hform hvar hdir => ?_⟩
  · rw [he 0 (by simp [elemCount, hform])]
    exact h.cell x hform hvar hdir
  · rw [he 0 (by simp [elemCount, hform])]
    exact h.text size x hform hvar hdir
  · obtain ⟨size, hsize, hall⟩ := h.vector kind elemSize elemCount xs hform hvar hdir
    refine ⟨size, hsize, fun i x hx hi => ?_⟩
    rw [he i (lt_of_lt_of_le (covers_iff.mp hi) (o.count_le_elemCount arraySize xs.length))]
    exact hall i x hx hi

end BindPlan

namespace BindObject
variable {w v : World} {stmt : Address} {o : BindObject} {os : List BindObject} {arraySize : Nat}

/-! ### One object -/

lemma found_of_pushCell {x : Host o.ty} (hs : o.Stands stmt w) (hform : o.form = .cell)
    (hv : o.ty.isVariable = false) (h : (o.pushCell o.ty x).run w = (.ok (), v)) :
    v.seen? stmt o.name 1 = some (Host.bytes o.ty x) := by
  obtain ⟨length, hl⟩ := ValueType.size?_of_fixed hv
  have hsize : o.elemSize = length := by simp [BindPlan.elemSize, hform, hl]
  have hcount : o.elemCount = 1 := by simp [BindPlan.elemCount, hform]
  unfold pushCell at h
  rw [run_bind, run_update] at h
  obtain ⟨-, rfl⟩ := Prod.mk.inj h
  have hplace : o.Places stmt 0 (Host.bytes o.ty x) 0 w
      ((w.writeBuffer o.buffer 0 (Host.bytes o.ty x)).note (.pushedValue o.name o.ty)) := by
    refine ⟨by rw [Nat.zero_mul]; rfl, fun b hb => ?_⟩
    rw [hv, if_neg Bool.false_ne_true]
    exact hb
  obtain ⟨-, hself, -⟩ := hplace.spec hs (by omega) (by rw [Host.length_bytes hl, hsize])
  simpa [hv] using hself

lemma found_of_pushText {size : Nat} {x : Host o.ty} (hs : o.Stands stmt w) (hform : o.form = .text size)
    (hv : o.ty.isVariable = true) (h : (o.pushText stmt size o.ty x).run w = (.ok (), v)) :
    v.seen? stmt o.name 1 = some (Host.bytesWithin size o.ty x) := by
  have hsize : o.elemSize = size + 1 := by simp [BindPlan.elemSize, hform]
  have hcount : o.elemCount = 1 := by simp [BindPlan.elemCount, hform]
  simp only [pushText, Host.fill] at h
  generalize hbs : Host.bytesWithin size o.ty x = bs at h ⊢
  have hle : bs.length ≤ size := hbs ▸ Host.length_bytesWithin_le hv size x
  rw [run_bind, run_update] at h
  obtain ⟨_, u, hreport, hnote⟩ := ok_of_bind h
  obtain ⟨-, rfl⟩ := Prod.mk.inj hnote
  obtain ⟨hm, hb⟩ := ok_of_reportSize hreport
  have hplace : o.Places stmt 0 (zeroFilled size bs ++ [0]) bs.length w
      (u.note (.pushedBytes o.name bs.length size)) := by
    refine ⟨by rw [Nat.zero_mul]; exact hm, fun b he => ?_⟩
    rw [if_pos hv]
    exact hb b he
  obtain ⟨-, hself, -⟩ := hplace.spec hs (by omega) (by simp [length_zeroFilled hle, hsize])
  rw [if_pos hv, List.take_append_of_le_length (by rw [length_zeroFilled hle]; exact hle), take_zeroFilled] at hself
  exact hself

lemma found_of_pushVector {size : Nat} {xs : List (Host o.ty)} (hs : o.Stands stmt w)
    (hsize : o.elemSize = o.ty.stride size) (h : (o.pushVector stmt arraySize o.ty xs).run w = (.ok (), v)) {i : Nat}
    {x : Host o.ty} (hx : xs[i]? = some x) (hi : o.Covers arraySize xs.length i) :
    v.seen? stmt o.name (i + 1) = some (Host.bytesWithin size o.ty x) := by
  obtain ⟨_, u, hpush, hnote⟩ := ok_of_bind h
  obtain ⟨-, rfl⟩ := Prod.mk.inj hnote
  have hle := o.count_le_elemCount arraySize xs.length
  have hfound := (found_of_pushFrom rfl hsize hs (by rw [List.length_take]; omega) hpush).1 i x
    (by rw [List.getElem?_take, if_pos (BindPlan.covers_iff.mp hi)]; exact hx)
  rwa [Nat.zero_add] at hfound

/-- An object that has been loaded is found to hold what its variable holds. -/
theorem arrives_of_push (hs : o.Stands stmt w) (hshape : o.Shaped) (h : (o.push stmt arraySize).run w = (.ok (), v)) :
    o.Arrives arraySize w.vars fun i => v.seen? stmt o.name (i + 1) := by
  unfold push at h
  rw [run_bind, run_get] at h
  dsimp only at h
  refine ⟨fun x hform hvar hdir => ?_, fun size x hform hvar hdir => ?_,
    fun kind elemSize elemCount xs hform hvar hdir => ?_⟩
  · have hv : o.ty.isVariable = false := by simpa [BindPlan.Shaped, hform] using hshape
    have hgo : (o.direction.isIn || o.ty.isHandle) = true := by simpa using hdir
    rw [hvar, hform] at h
    simp only [hgo, if_true] at h
    exact found_of_pushCell hs hform hv h
  · have hv : o.ty.isVariable = true := by simpa [BindPlan.Shaped, hform] using hshape
    rw [hvar, hform] at h
    simp only [hdir, if_true] at h
    exact ⟨_, found_of_pushText hs hform hv h, Host.fits_bytesWithin size o.ty x⟩
  · obtain ⟨size, hstride⟩ : ∃ size, elemSize = o.ty.stride size := by simpa [BindPlan.Shaped, hform] using hshape
    have hsize : o.elemSize = o.ty.stride size := by simp [BindPlan.elemSize, hform, hstride]
    have hgo : (o.direction.isIn || o.ty.isHandle) = true := by simpa using hdir
    rw [hvar] at h
    simp only [hgo, if_true] at h
    exact ⟨size, hstride, fun i x hx hi =>
      ⟨_, found_of_pushVector hs hsize h hx hi, Host.fits_bytesWithin size o.ty x⟩⟩

/-! ### All objects -/

/-- Objects of different names and buffers are loaded one after the other, each as if it were the only one. -/
theorem arrives_of_exchangeAll (hn : (os.map fun o => o.name).Nodup) (hb : (os.map BindObject.buffer).Nodup)
    (hs : ∀ o ∈ os, o.Stands stmt w) (hshape : ∀ o ∈ os, o.Shaped)
    (h : (exchangeAll (fun o => o.push stmt arraySize) os).run w = (.ok (), v)) :
    ∀ o ∈ os, o.Arrives arraySize w.vars fun i => v.seen? stmt o.name (i + 1) := by
  induction os generalizing w with
  | nil => simp
  | cons o rest ih =>
    obtain ⟨hname, hn⟩ := List.nodup_cons.mp hn
    obtain ⟨hbuffer, hb⟩ := List.nodup_cons.mp hb
    obtain ⟨_, u, hfirst, hrest⟩ := ok_of_bind h
    have hpush := ok_of_dressed hfirst
    have hone : Loads stmt [o] w u := ((loads_loading (List.mem_singleton_self o)).push trivial arraySize).rel hpush
    have hlater : Loads stmt rest u v := (loads_exchangeAll arraySize rest u).rel hrest
    have hstands : ∀ p ∈ rest, p.Stands stmt u := fun p hp => (hs p (List.mem_cons_of_mem o hp)).of_loads hone
    intro p hp
    rcases List.mem_cons.mp hp with rfl | hp
    · have hseen := ((hs p List.mem_cons_self).of_loads hone).seen_of_loads hlater hname hbuffer
      simp only [hseen]
      exact arrives_of_push (hs p List.mem_cons_self) (hshape p List.mem_cons_self) hpush
    · rw [← hone.vars]
      exact ih hn hb hstands (fun q hq => hshape q (List.mem_cons_of_mem o hq)) hrest p hp

end BindObject
end DbClient
