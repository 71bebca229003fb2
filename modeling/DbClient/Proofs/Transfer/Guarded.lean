import DbClient.Proofs.Transfer.Steady

/-! Guarded exchanges. They do what the exchanges of the client do, but each of them insists on its bounds: a cell is
one of the cells of its object and lies in the buffer, an element is one of the elements of its vector, and the native
library knows each position that it is told or asked about, with room for the size. Where objects stand on both sides
and variables are of the types for which they were bound, no guard ever fires. -/
namespace DbClient
open Act World

namespace Act
variable {α β : Type} {w : World}

/-- Fails unless a condition holds. -/
def insist (what : String) (c : Prop) [Decidable c] : Act Unit :=
  if c then pure () else throw (.outOfBounds what 0 0 0)

lemma run_insist {what : String} {c : Prop} [Decidable c] (hc : c) (f : Unit → Act β) :
    (insist what c >>= f).run w = (f ()).run w := by
  rw [insist, if_pos hc]
  rfl

/-- Operations that begin alike and go on alike end alike. -/
lemma run_bind_congr {a b : Act α} {f g : α → Act β} (h : a.run w = b.run w)
    (hnext : ∀ x v, b.run w = (.ok x, v) → (f x).run v = (g x).run v) : (a >>= f).run w = (b >>= g).run w := by
  rw [run_bind, run_bind, h]
  rcases hr : b.run w with ⟨e | x, v⟩
  · rfl
  · exact hnext x v hr

lemma run_dressed_congr {dress : ClientError → ClientError} {a b : Act α} (h : a.run w = b.run w) :
    (dressed dress a).run w = (dressed dress b).run w := by
  rw [dressed, dressed, run_tryCatch, run_tryCatch, h]

end Act

/-- The native library has a bound variable of that name, with the position, and with room for a size. -/
def Library.accepts (stmt : Address) (name : String) (pos size : Nat) (l : Library) : Bool :=
  (l.bound? stmt name).any fun b => decide (b.HasPosition pos) && decide (size ≤ b.elemSize)

namespace BindObject.Guarded

/-! ### Guarded accesses -/

/-- The cell of an element, which is one of the object's and lies in its buffer. -/
def cell (o : BindObject) (i : Nat) : Act (List UInt8) := do
  let w ← get
  Act.insist "cell" (i < o.elemCount)
  Act.insist "buffer" (i * o.elemSize + o.elemSize ≤ (w.bufferBytes o.buffer).length)
  pure (o.cell i w)

/-- Writes bytes for which the buffer has room. -/
def write (o : BindObject) (offset : Nat) (bytes : List UInt8) : Act Unit := do
  let w ← get
  Act.insist "buffer" (offset + bytes.length ≤ (w.bufferBytes o.buffer).length)
  Act.update (World.writeBuffer o.buffer offset bytes)

/-- As many bytes of a cell as are asked for. -/
def front (cell : List UInt8) (size : Nat) : Act (List UInt8) := do
  Act.insist "front" (size ≤ cell.length)
  pure (cell.take size)

/-- An element of a vector. -/
def element {α : Type} (xs : List α) (i : Nat) : Act α :=
  match xs[i]? with
  | some x => pure x
  | none => throw (.outOfBounds "element" 0 0 0)

/-- Tells a size that the native library accepts. -/
def report (o : BindObject) (stmt : Address) (pos size : Nat) : Act Unit := do
  let w ← get
  Act.insist "size" (w.library.accepts stmt o.name pos size)
  o.reportSize stmt pos size

/-- Asks about a position that the native library accepts. -/
def ask (o : BindObject) (stmt : Address) (pos limit : Nat) : Act Nat := do
  let w ← get
  Act.insist "position" (w.library.accepts stmt o.name pos 0)
  o.askSize stmt pos limit

/-- The length of an element: the one that the native library knows, if it can vary. -/
def askLength (o : BindObject) (stmt : Address) (ty : ValueType) (i : Nat) : Act Nat :=
  if ty.isVariable then ask o stmt (i + 1) (o.elemSize - 1) else pure o.elemSize

/-! ### Guarded exchanges -/

def pushCell (o : BindObject) (ty : ValueType) (x : Host ty) : Act Unit := do
  write o 0 (Host.bytes ty x)
  Act.note (.pushedValue o.name ty)

def pullCell (o : BindObject) (ty : ValueType) : Act Unit := do
  let cell ← cell o 0
  match Host.ofBytes? ty cell with
  | none => throw (.conversion ty)
  | some x =>
    Act.update (World.setVar o.var (.single ty x))
    Act.note (.pulledValue o.name ty)

def pushText (o : BindObject) (stmt : Address) (size : Nat) (ty : ValueType) (x : Host ty) : Act Unit := do
  let (count, bytes) := Host.fill ty x size
  write o 0 (bytes ++ [0])
  report o stmt 1 count
  Act.note (.pushedBytes o.name count size)

def pullText (o : BindObject) (stmt : Address) (size : Nat) (ty : ValueType) : Act Unit := do
  let count ← ask o stmt 1 size
  let cell ← cell o 0
  let bytes ← front cell count
  match Host.ofBytes? ty bytes with
  | none => throw (.conversion ty)
  | some x =>
    Act.update (World.setVar o.var (.single ty x))
    Act.note (.pulledBytes o.name count)

/-- Copies `count` elements of a vector into their cells, the first of them the one with the index `i`. -/
def pushFrom (o : BindObject) (stmt : Address) (ty : ValueType) (xs : List (Host ty)) (i : Nat) : Nat → Act Unit
  | 0 => pure ()
  | count + 1 => do
    let x ← element xs i
    let cell ← cell o i
    let (size, bytes) := Host.writeElement ty x cell
    write o (i * o.elemSize) bytes
    if ty.isVariable then report o stmt (i + 1) size
    pushFrom o stmt ty xs (i + 1) count

def pushVector (o : BindObject) (stmt : Address) (arraySize : Nat) (ty : ValueType) (xs : List (Host ty)) :
    Act Unit := do
  let count := o.count arraySize xs.length
  pushFrom o stmt ty xs 0 count
  Act.note (.pushedElements o.name count xs.length)

/-- Copies `count` cells, the first of them with the index `i`, into the vector. -/
def pullFrom (o : BindObject) (stmt : Address) (ty : ValueType) (xs : List (Host ty)) (i : Nat) : Nat → Act Unit
  | 0 => pure ()
  | count + 1 => do
    let size ← askLength o stmt ty i
    let cell ← cell o i
    let bytes ← front cell size
    match Host.ofBytes? ty bytes with
    | none => throw (.conversion ty)
    | some x =>
      let _ ← element xs i
      Act.update (World.setVar o.var (.vector ty (xs.set i x)))
      pullFrom o stmt ty (xs.set i x) (i + 1) count

def pullVector (o : BindObject) (stmt : Address) (arraySize : Nat) (ty : ValueType) (xs : List (Host ty)) :
    Act Unit := do
  let count := o.count arraySize xs.length
  pullFrom o stmt ty xs 0 count
  Act.note (.pulledElements o.name count)

/-- Copies the variable into the buffer. -/
def push (o : BindObject) (stmt : Address) (arraySize : Nat) : Act Unit := do
  match (← get).vars.get? o.var, o.form with
  | some (.single ty x), .text size => if o.direction.isIn then pushText o stmt size ty x
  | some (.single ty x), _ => if o.direction.isIn || ty.isHandle then pushCell o ty x
  | some (.vector ty xs), _ => if o.direction.isIn || ty.isHandle then pushVector o stmt arraySize ty xs
  | none, _ => pure ()

/-- Copies the buffer into the variable. -/
def pull (o : BindObject) (stmt : Address) (arraySize : Nat) : Act Unit := do
  if o.direction.isOut then
    match (← get).vars.get? o.var, o.form with
    | some (.single ty _), .text size => pullText o stmt size ty
    | some (.single ty _), _ => pullCell o ty
    | some (.vector ty xs), _ => pullVector o stmt arraySize ty xs
    | none, _ => pure ()

end BindObject.Guarded

namespace Statement

/-- Makes a statement ready to be executed, with guarded exchanges. -/
def loadGuarded (s : Statement) : Act (Address × StatementData) := do
  let stmt ← s.handle.live
  let _ ← s.releaseResultsets
  let d ← s.data
  requireStatus d .prepared "execute"
  Act.dressed (ClientError.withSql d.sql)
    (BindObject.exchangeAll (fun o => BindObject.Guarded.push o stmt d.arraySize) d.binds.objects)
  pure (stmt, d)

/-- What is left to do after the native statement has been executed, with guarded exchanges. -/
def unloadGuarded (s : Statement) (stmt : Address) (d : StatementData) : Act Unit := do
  Act.update (s.putData { d with status := .executed })
  Act.dressed (ClientError.withSql d.sql)
    (BindObject.exchangeAll (fun o => BindObject.Guarded.pull o stmt d.arraySize) d.binds.objects)
  Act.note (.executed stmt d.arraySize)

/-- An execution with guarded exchanges. -/
def executeGuarded (s : Statement) : Act Unit := do
  let (stmt, d) ← s.loadGuarded
  let done ← modifyGet (runNative stmt d.arraySize)
  Act.orFail (fun e => (e.withSql d.sql).withHandle stmt) done
  s.unloadGuarded stmt d

end Statement

/-! ### Where no guard fires -/

/-- What a variable keeps for ever: the type of its values, and whether it holds a vector of them. -/
def HostVar.sort : HostVar → ValueType × Bool
  | single ty _ => (ty, false)
  | vector ty _ => (ty, true)

/-- The sort of the variables for which an object is made. -/
def BindPlan.sort (o : BindPlan) : ValueType × Bool :=
  match o.form with
  | .vector .. => (o.ty, true)
  | _ => (o.ty, false)

/-- The variable of an object is of the sort for which the object was made. -/
def BindPlan.Suits (o : BindPlan) (vars : Table HostVar) : Prop := ∃ v, vars.get? o.var = some v ∧ v.sort = o.sort

namespace BindPlan.Suits
variable {o : BindPlan} {vars : Table HostVar}

lemma single (h : o.Suits vars) (hform : ∀ kind elemSize elemCount, o.form ≠ .vector kind elemSize elemCount) :
    ∃ x, vars.get? o.var = some (.single o.ty x) := by
  obtain ⟨v, hv, hs⟩ := h
  have hsort : o.sort = (o.ty, false) := by
    unfold sort
    split
    · rename_i hvector
      exact absurd hvector (hform _ _ _)
    · rfl
  rw [hsort] at hs
  cases v with
  | single ty x =>
    obtain rfl := congrArg Prod.fst hs
    exact ⟨x, hv⟩
  | vector ty xs => cases congrArg Prod.snd hs

lemma vector {kind : VectorKind} {elemSize elemCount : Nat} (h : o.Suits vars)
    (hform : o.form = .vector kind elemSize elemCount) : ∃ xs, vars.get? o.var = some (.vector o.ty xs) := by
  obtain ⟨v, hv, hs⟩ := h
  rw [BindPlan.sort, hform] at hs
  cases v with
  | single ty x => cases congrArg Prod.snd hs
  | vector ty xs =>
    obtain rfl := congrArg Prod.fst hs
    exact ⟨xs, hv⟩

end BindPlan.Suits

/-- No more elements of a vector take part than it has. -/
lemma BindPlan.count_le_length {kind : VectorKind} {elemSize elemCount : Nat} (o : BindPlan) (arraySize : Nat)
    (hform : o.form = .vector kind elemSize elemCount) (length : Nat) : o.count arraySize length ≤ length := by
  unfold count
  rw [hform]
  cases kind <;> dsimp only <;> omega

lemma BindPlan.MadeFor.suits {o : BindPlan} {d : StatementData} {w : World} (h : o.MadeFor d w) : o.Suits w.vars := by
  obtain ⟨v, kind, size, hv, he⟩ := h
  refine ⟨v, hv, ?_⟩
  rw [he]
  cases v with
  | single ty x => by_cases ht : ty.isVariable = true <;> simp [ofVar, BindPlan.single, BindPlan.sort, ht, HostVar.sort]
  | vector ty xs => rfl

namespace BindObject
variable {w v : World} {stmt : Address} {o : BindObject} {ty : ValueType} {i pos size : Nat}

/-- An entry that was made for an object accepts what lies within the object. -/
lemma Stands.accepts (hs : o.Stands stmt w) (hpos : 1 ≤ pos) (hcount : pos ≤ o.elemCount) (hsize : size ≤ o.elemSize) :
    w.library.accepts stmt o.name pos size = true := by
  obtain ⟨b, hb, hf⟩ := hs.entry
  obtain ⟨-, h2, h3, -⟩ := describes hf
  have hp : b.HasPosition pos := ⟨hpos, h3 ▸ hcount⟩
  simp [Library.accepts, hb, hp, h2, hsize]

lemma Stands.length_buffer (hs : o.Stands stmt w) : (w.bufferBytes o.buffer).length = o.elemSize * o.elemCount := by
  obtain ⟨⟨bytes, hm, hlen⟩, -⟩ := hs
  rw [bufferBytes, hm, Option.getD_some, hlen]

/-- A step into the buffer of an object leaves the object on both sides. -/
lemma Stands.keep {a : Act Unit} (hs : o.Stands stmt w) (ha : Does (Loads stmt [o]) a w)
    (hr : a.run w = (.ok (), v)) : o.Stands stmt v := hs.of_loads (ha.rel hr)

namespace Guarded

lemma run_cell {β : Type} (hs : o.Stands stmt w) (hi : i < o.elemCount) (f : List UInt8 → Act β) :
    (cell o i >>= f).run w = (f (o.cell i w)).run w := by
  have hb : i * o.elemSize + o.elemSize ≤ (w.bufferBytes o.buffer).length := by
    rw [hs.length_buffer]
    exact cell_within hi
  simp only [cell, bind_assoc, pure_bind]
  rw [run_bind, run_get]
  dsimp only
  rw [run_insist hi, run_insist hb]

lemma run_write {offset : Nat} {bytes : List UInt8} (hs : o.Stands stmt w)
    (hb : offset + bytes.length ≤ o.elemSize * o.elemCount) :
    (write o offset bytes).run w = (update (World.writeBuffer o.buffer offset bytes)).run w := by
  rw [write, run_bind, run_get]
  exact run_insist (hs.length_buffer ▸ hb) _

lemma run_front {β : Type} {cell : List UInt8} (h : size ≤ cell.length) (f : List UInt8 → Act β) :
    (front cell size >>= f).run w = (f (cell.take size)).run w := by
  rw [front, bind_assoc, run_insist h]
  rfl

lemma run_element {α β : Type} {xs : List α} {x : α} (h : xs[i]? = some x) (f : α → Act β) :
    (element xs i >>= f).run w = (f x).run w := by
  rw [element, h]
  rfl

lemma run_report (hs : o.Stands stmt w) (hpos : 1 ≤ pos) (hcount : pos ≤ o.elemCount) (hsize : size ≤ o.elemSize) :
    (report o stmt pos size).run w = (o.reportSize stmt pos size).run w := by
  rw [report, run_bind, run_get]
  exact run_insist (hs.accepts hpos hcount hsize) _

lemma run_ask (hs : o.Stands stmt w) (hpos : 1 ≤ pos) (hcount : pos ≤ o.elemCount) (limit : Nat) :
    (ask o stmt pos limit).run w = (o.askSize stmt pos limit).run w := by
  rw [ask, run_bind, run_get]
  exact run_insist (hs.accepts hpos hcount (Nat.zero_le _)) _

end Guarded

/-! ### Into the buffers -/

/-- What an element takes of its cell. -/
lemma size_writeElement_le {cell : List UInt8} (hv : ty.isVariable = true) (x : Host ty)
    (hc : cell.length = o.elemSize) : (Host.writeElement ty x cell).1 ≤ o.elemSize := by
  have hle := Host.length_bytesWithin_le hv (cell.length - 1) x
  simp only [Host.writeElement, hv, if_true]
  omega

lemma pushFrom_cons (x : Host ty) (rest : List (Host ty)) (i : Nat) : o.pushFrom stmt ty i (x :: rest) = (do
    let w ← get
    Act.update (World.writeBuffer o.buffer (i * o.elemSize) (Host.writeElement ty x (o.cell i w)).2)
    if ty.isVariable then o.reportSize stmt (i + 1) (Host.writeElement ty x (o.cell i w)).1
    o.pushFrom stmt ty (i + 1) rest) := by
  conv_lhs => unfold pushFrom

lemma Guarded.pushFrom_succ (xs : List (Host ty)) (i count : Nat) : Guarded.pushFrom o stmt ty xs i (count + 1) = (do
    let x ← element xs i
    let cell ← cell o i
    write o (i * o.elemSize) (Host.writeElement ty x cell).2
    if ty.isVariable then report o stmt (i + 1) (Host.writeElement ty x cell).1
    Guarded.pushFrom o stmt ty xs (i + 1) count) := by
  conv_lhs => unfold Guarded.pushFrom

/-- Elements for which there are cells are copied with no guard fired. -/
theorem Guarded.run_pushFrom {xs : List (Host ty)} {count : Nat} (hs : o.Stands stmt w)
    (hlen : i + count ≤ xs.length) (hcount : i + count ≤ o.elemCount) :
    (Guarded.pushFrom o stmt ty xs i count).run w = (o.pushFrom stmt ty i ((xs.drop i).take count)).run w := by
  induction count generalizing w i with
  | zero => simp [Guarded.pushFrom, BindObject.pushFrom]
  | succ count ih =>
    have hi : i < xs.length := by omega
    have hic : i < o.elemCount := by omega
    have hcell := hs.length_cell hic
    have hpart : (xs.drop i).take (count + 1) = xs[i] :: (xs.drop (i + 1)).take count := by
      rw [List.drop_eq_getElem_cons hi, List.take_succ_cons]
    have hroom : i * o.elemSize + (Host.writeElement ty xs[i] (o.cell i w)).2.length ≤ o.elemSize * o.elemCount := by
      rw [Host.length_writeElement, hcell]
      exact cell_within hic
    rw [hpart, Guarded.pushFrom_succ, pushFrom_cons, run_element (List.getElem?_eq_getElem hi), run_cell hs hic,
      run_get_bind]
    refine run_bind_congr (run_write hs hroom) fun _ u hu => ?_
    have hsu : o.Stands stmt u := hs.keep (Loads.writes (List.mem_singleton_self o) _ _) hu
    split
    · rename_i hv
      refine run_bind_congr (run_report hsu (by omega) (by omega) (size_writeElement_le hv _ hcell)) fun _ u' hu' => ?_
      exact ih (hsu.keep ((loads_loading (List.mem_singleton_self o)).report _ _ _ trivial) hu') (by omega) (by omega)
    · exact ih hsu (by omega) (by omega)

variable {arraySize : Nat} {os : List BindObject}

/-- No guard fires on the way into the buffer of an object. -/
theorem Guarded.run_push (hs : o.Stands stmt w) (hshape : o.Shaped) (hsuits : o.Suits w.vars) :
    (Guarded.push o stmt arraySize).run w = (o.push stmt arraySize).run w := by
  unfold Guarded.push BindObject.push
  rw [run_bind, run_bind, run_get]
  dsimp only
  cases hform : o.form with
  | cell =>
    obtain ⟨x, hx⟩ := hsuits.single (by simp [hform])
    have hv : o.ty.isVariable = false := by simpa [BindPlan.Shaped, hform] using hshape
    obtain ⟨length, hl⟩ := ValueType.size?_of_fixed hv
    have hroom : 0 + (Host.bytes o.ty x).length ≤ o.elemSize * o.elemCount := by
      simp [Host.length_bytes hl, BindPlan.elemSize, BindPlan.elemCount, hform, hl]
    rw [hx]
    dsimp only
    split
    · exact run_bind_congr (run_write hs hroom) fun _ _ _ => rfl
    · rfl
  | text size =>
    obtain ⟨x, hx⟩ := hsuits.single (by simp [hform])
    have hv : o.ty.isVariable = true := by simpa [BindPlan.Shaped, hform] using hshape
    have helem : o.elemSize = size + 1 := by simp [BindPlan.elemSize, hform]
    have hcount : o.elemCount = 1 := by simp [BindPlan.elemCount, hform]
    have hle := Host.length_bytesWithin_le hv size x
    have hroom : 0 + ((Host.fill o.ty x size).2 ++ [0]).length ≤ o.elemSize * o.elemCount := by
      rw [List.length_append, Host.fill, length_zeroFilled hle, helem, hcount]
      simp
    rw [hx]
    dsimp only
    split
    · refine run_bind_congr (run_write hs hroom) fun _ u hu => ?_
      have hsu : o.Stands stmt u := hs.keep (Loads.writes (List.mem_singleton_self o) _ _) hu
      exact run_bind_congr (run_report hsu (by omega) (by omega) (helem ▸ Nat.le_succ_of_le hle)) fun _ _ _ => rfl
    · rfl
  | vector kind elemSize elemCount =>
    obtain ⟨xs, hxs⟩ := hsuits.vector hform
    rw [hxs]
    dsimp only
    split
    · have hcover := o.count_le_elemCount arraySize xs.length
      have hlen := o.count_le_length arraySize hform xs.length
      exact run_bind_congr (run_pushFrom hs (by omega) (by omega)) fun _ _ _ => rfl
    · rfl

/-! ### Out of the buffers -/

lemma Stands.of_unloads (hs : o.Stands stmt w) (h : Unloads stmt arraySize os w v) : o.Stands stmt v := by
  obtain ⟨⟨bytes, hm, hlen⟩, ⟨b, he, hf⟩⟩ := hs
  obtain ⟨b', he', hf'⟩ := Option.map_eq_some_iff.mp ((h.library.frames stmt o.name).trans (congrArg _ he))
  exact ⟨⟨bytes, h.memory ▸ hm, hlen⟩, ⟨b', he', hf'.trans hf⟩⟩

/-- An answer about an element, and the object that still stands after it. -/
lemma Stands.of_askSize {limit n : Nat} (hs : o.Stands stmt w) (h : (o.askSize stmt pos limit).run w = (.ok n, v)) :
    o.Stands stmt v ∧ n ≤ limit := by
  have hask : Does (Unloads stmt 0 [o]) (o.askSize stmt pos limit) w :=
    (unloads_unloading (List.mem_singleton_self o)).ask w pos limit trivial
  obtain ⟨size, l, -, rfl, -⟩ := ok_of_askSize h
  exact ⟨hs.of_unloads (hask.rel h), Nat.min_le_right _ _⟩

lemma Guarded.pullFrom_succ (xs : List (Host ty)) (i count : Nat) : Guarded.pullFrom o stmt ty xs i (count + 1) = (do
    let size ← askLength o stmt ty i
    let cell ← cell o i
    let bytes ← front cell size
    match Host.ofBytes? ty bytes with
    | none => throw (.conversion ty)
    | some x =>
      let _ ← element xs i
      Act.update (World.setVar o.var (.vector ty (xs.set i x)))
      Guarded.pullFrom o stmt ty (xs.set i x) (i + 1) count) := by
  conv_lhs => unfold Guarded.pullFrom

/-- Cells that are there are copied into elements that are there with no guard fired. -/
theorem Guarded.run_pullFrom {xs : List (Host ty)} {count : Nat} (hs : o.Stands stmt w)
    (hlen : i + count ≤ xs.length) (hcount : i + count ≤ o.elemCount) :
    (Guarded.pullFrom o stmt ty xs i count).run w = (o.pullFrom stmt ty xs i count).run w := by
  induction count generalizing w xs i with
  | zero => rfl
  | succ count ih =>
    have hask : (Guarded.askLength o stmt ty i).run w = (o.askLength stmt ty i).run w := by
      unfold Guarded.askLength BindObject.askLength
      split
      · exact run_ask hs (by omega) (by omega) _
      · rfl
    rw [Guarded.pullFrom_succ, BindObject.pullFrom_succ]
    refine run_bind_congr hask fun size u hu => ?_
    obtain ⟨hsu, hsize⟩ : o.Stands stmt u ∧ size ≤ o.elemSize := by
      unfold BindObject.askLength at hu
      split at hu
      · obtain ⟨hsu, hn⟩ := hs.of_askSize hu
        exact ⟨hsu, by omega⟩
      · obtain ⟨hn, rfl⟩ := Prod.mk.inj hu
        exact ⟨hs, (Except.ok.inj hn).symm.le⟩
    have hi : i < o.elemCount := by omega
    rw [run_cell hsu hi, run_front (by rw [hsu.length_cell hi]; exact hsize), run_get_bind]
    cases Host.ofBytes? ty ((o.cell i u).take size) with
    | none => rfl
    | some x =>
      have hset : o.Stands stmt (u.setVar o.var (.vector ty (xs.set i x))) := ⟨hsu.buffer, hsu.entry⟩
      dsimp only
      rw [run_element (List.getElem?_eq_getElem (show i < xs.length by omega)), run_bind, run_bind, run_update]
      exact ih hset (by rw [List.length_set]; omega) (by omega)

lemma Guarded.run_pullCell (hs : o.Stands stmt w) (hi : 0 < o.elemCount) :
    (Guarded.pullCell o ty).run w = (o.pullCell ty).run w := by
  unfold Guarded.pullCell BindObject.pullCell
  rewrite [run_cell hs hi, run_get_bind]
  cases Host.ofBytes? ty (o.cell 0 w) <;> rfl

lemma Guarded.run_pullText (hs : o.Stands stmt w) (hi : 0 < o.elemCount) (hsize : size ≤ o.elemSize) :
    (Guarded.pullText o stmt size ty).run w = (o.pullText stmt size ty).run w := by
  unfold Guarded.pullText BindObject.pullText
  refine run_bind_congr (run_ask hs (Nat.le_refl 1) hi size) fun n u hu => ?_
  obtain ⟨hsu, hn⟩ := hs.of_askSize hu
  rewrite [run_cell hsu hi, run_front (by rw [hsu.length_cell hi]; omega), run_get_bind]
  cases Host.ofBytes? ty ((o.cell 0 u).take n) <;> rfl

/-- No guard fires on the way out of the buffer of an object. -/
theorem Guarded.run_pull (hs : o.Stands stmt w) (hsuits : o.Suits w.vars) :
    (Guarded.pull o stmt arraySize).run w = (o.pull stmt arraySize).run w := by
  unfold Guarded.pull BindObject.pull
  split
  · rw [run_bind, run_bind, run_get]
    dsimp only
    cases hform : o.form with
    | cell =>
      obtain ⟨x, hx⟩ := hsuits.single (by simp [hform])
      rw [hx]
      exact run_pullCell hs (by simp [BindPlan.elemCount, hform])
    | text size =>
      obtain ⟨x, hx⟩ := hsuits.single (by simp [hform])
      have helem : o.elemSize = size + 1 := by simp [BindPlan.elemSize, hform]
      rw [hx]
      exact run_pullText hs (by simp [BindPlan.elemCount, hform]) (by omega)
    | vector kind elemSize elemCount =>
      obtain ⟨xs, hxs⟩ := hsuits.vector hform
      have hcover := o.count_le_elemCount arraySize xs.length
      have hlen := o.count_le_length arraySize hform xs.length
      rw [hxs]
      exact run_bind_congr (run_pullFrom hs (by omega) (by omega)) fun _ _ _ => rfl
  · rfl

/-! ### All objects -/

/-- What is unloaded keeps the sorts of variables. -/
lemma suits_of_unloads (hsuits : o.Suits w.vars) (h : Unloads stmt arraySize os w v) : o.Suits v.vars := by
  obtain ⟨x, hx, hs⟩ := hsuits
  cases x with
  | single ty y =>
    obtain ⟨z, hz⟩ := h.singles o.var ty y hx
    exact ⟨_, hz, hs⟩
  | vector ty ys =>
    obtain ⟨zs, hzs, -⟩ := h.vectors o.var ty ys hx
    exact ⟨_, hzs, hs⟩

/-- Objects can be exchanged: they stand on both sides, in forms that suit their types and with variables that suit
them. -/
def Fitted (os : List BindObject) (stmt : Address) (w : World) : Prop :=
  ∀ o ∈ os, o.Stands stmt w ∧ o.Shaped ∧ o.Suits w.vars

lemma Fitted.of_loads (h : Fitted os stmt w) {os' : List BindObject} (hl : Loads stmt os' w v) : Fitted os stmt v :=
  fun o ho => ⟨(h o ho).1.of_loads hl, (h o ho).2.1, hl.vars ▸ (h o ho).2.2⟩

lemma Fitted.of_unloads (h : Fitted os stmt w) {os' : List BindObject} (hu : Unloads stmt arraySize os' w v) :
    Fitted os stmt v := fun o ho => ⟨(h o ho).1.of_unloads hu, (h o ho).2.1, suits_of_unloads (h o ho).2.2 hu⟩

/-- Exchanges that agree object by object agree on all objects, as long as a property lasts. -/
lemma run_exchangeAll_congr {I : World → Prop} {f g : BindObject → Act Unit}
    (hkeep : ∀ o ∈ os, ∀ w v, I w → (g o).run w = (.ok (), v) → I v)
    (heq : ∀ o ∈ os, ∀ w, I w → (f o).run w = (g o).run w) (hw : I w) :
    (exchangeAll f os).run w = (exchangeAll g os).run w := by
  induction os generalizing w with
  | nil => rfl
  | cons o rest ih =>
    refine run_bind_congr (run_dressed_congr (heq o List.mem_cons_self w hw)) fun _ v hv => ?_
    exact ih (fun p hp => hkeep p (List.mem_cons_of_mem o hp)) (fun p hp => heq p (List.mem_cons_of_mem o hp))
      (hkeep o List.mem_cons_self w v hw (ok_of_dressed hv))

/-- No guard fires on the way into the buffers, -/
theorem Guarded.run_pushAll (h : Fitted os stmt w) (arraySize : Nat) :
    (exchangeAll (fun o => Guarded.push o stmt arraySize) os).run w =
      (exchangeAll (fun o => o.push stmt arraySize) os).run w :=
  run_exchangeAll_congr (I := Fitted os stmt)
    (fun _ ho _ _ hw hr => hw.of_loads (((loads_loading ho).push trivial arraySize).rel hr))
    (fun o ho _ hw => run_push (hw o ho).1 (hw o ho).2.1 (hw o ho).2.2) h

/-- and none on the way out of them. -/
theorem Guarded.run_pullAll (h : Fitted os stmt w) (arraySize : Nat) :
    (exchangeAll (fun o => Guarded.pull o stmt arraySize) os).run w =
      (exchangeAll (fun o => o.pull stmt arraySize) os).run w :=
  run_exchangeAll_congr (I := Fitted os stmt)
    (fun o ho _ _ hw hr =>
      have hunloading : Unloading (Unloads stmt arraySize os) (fun _ => True) stmt arraySize o := unloads_unloading ho
      hw.of_unloads ((hunloading.pull trivial).rel hr))
    (fun o ho _ hw => run_pull (hw o ho).1 (hw o ho).2.2) h

end BindObject

namespace Statement
open BindObject
variable {s : Statement} {w u : World} {stmt : Address} {d : StatementData}

/-- Objects can be exchanged whatever is put beside the handle. -/
lemma fitted_putData {os : List BindObject} (s : Statement) (h : Fitted os stmt u) (d : StatementData) :
    Fitted os stmt (s.putData d u) := by
  obtain ⟨h1, h2, h3⟩ := s.putData_aside d u
  exact fun o ho => ⟨⟨h2 ▸ (h o ho).1.buffer, h1 ▸ (h o ho).1.entry⟩, (h o ho).2.1, h3 ▸ (h o ho).2.2⟩

lemma run_unloadGuarded (h : Fitted d.binds.objects stmt u) :
    (s.unloadGuarded stmt d).run u = (s.unload stmt d).run u := by
  refine run_bind_congr rfl fun _ v hv => ?_
  obtain ⟨-, rfl⟩ := Prod.mk.inj hv
  exact run_bind_congr (run_dressed_congr (Guarded.run_pullAll (s.fitted_putData h _) d.arraySize)) fun _ _ _ => rfl

/-- An execution whose objects can be exchanged, before and after it, is one in which no guard fires. -/
theorem run_executeGuarded (hload : s.loadGuarded.run w = s.load.run w) (hfit : ∀ stmt d v u,
      s.load.run w = (.ok (stmt, d), v) → runNative stmt d.arraySize v = (some (), u) → Fitted d.binds.objects stmt u) :
    s.executeGuarded.run w = s.executePrepared.run w := by
  refine run_bind_congr hload fun p v hp => ?_
  obtain ⟨stmt, d⟩ := p
  refine run_bind_congr rfl fun done u hdone => ?_
  rw [run_modifyGet] at hdone
  refine run_bind_congr rfl fun _ x hanswer => ?_
  cases done with
  | none =>
    rw [orFail, run_bind, run_native] at hanswer
    cases hanswer
  | some _ =>
    obtain ⟨h1, rfl⟩ := Prod.mk.inj hdone
    obtain ⟨-, rfl⟩ := Prod.mk.inj hanswer
    exact run_unloadGuarded (hfit stmt d v _ hp (Prod.ext (Except.ok.inj h1) rfl))

end Statement
end DbClient
