import DbClient.Proofs.Alike.Operations
import DbClient.Session.Basic

/-! Statements in worlds that differ in data only. To bind a variable plans a buffer from what the variable holds: it
agrees when that is the same. All else but an execution does not see data. -/
namespace DbClient
open Act
variable {w w' : World}

namespace Statement

lemma alike_putData (s : Statement) (d : StatementData) (h : w.Alike w') : (s.putData d w).Alike (s.putData d w') := by
  unfold putData
  rw [h.liveNode?]
  split
  · exact h.modifyNode _ _
  · exact h

lemma blind_putData (s : Statement) (d : StatementData) : Blind (Act.update (s.putData d)) :=
  Blind.update fun _ _ => s.alike_putData d

lemma blind_create (conn : Connection) : Blind (create conn) := Blind.get fun w w' hw => by
  dsimp only
  rw [hw.isNull, hw.native]
  split
  · exact .throw_bind hw _ _ _
  · exact ((Blind.require (Library.blind_create _ _)).bind fun native =>
      (Wrapper.blind_adopt conn.env native .statement conn.handle _).bind fun handle =>
      (Blind.undoing (fun _ _ => handle.alike_drop) (handle.blind_setExtra _)).bind fun _ =>
      (Blind.note _).bind fun _ => (Blind.modifyGet conn.blind_clone).bind fun _ => .pure _) hw

lemma alike_drop (s : Statement) (h : w.Alike w') : (s.drop w).Alike (s.drop w') :=
  s.handle.alike_drop (s.conn.handle.alike_drop h)

lemma blind_releaseResultsets (s : Statement) : Blind s.releaseResultsets :=
  Blind.modifyGet (s.handle.blind_releaseChildren _)

lemma blind_prepare (s : Statement) (mode : PrepareMode) (sql : String) : Blind (s.prepare mode sql) :=
  (Blind.live _).bind fun stmt => s.blind_releaseResultsets.bind fun _ => (Blind.data s).bind fun d =>
    (Blind.update fun _ _ h => (s.alike_putData (d.reset sql) h).freeBuffers d.binds.buffers).bind fun _ =>
    (Blind.require (Library.blind_prepare stmt sql mode)).bind fun _ => (s.blind_putData _).bind fun _ => Blind.note _

lemma blind_register (s : Statement) (name : String) (ty : ValueType) (maxLength : Nat) :
    Blind (s.register name ty maxLength) := by
  refine (Blind.live _).bind fun stmt => (Blind.data s).bind fun d => (Blind.requireStatus d _ _).bind fun _ => ?_
  dsimp only
  split
  · exact .throw_bind _ _
  · exact Blind.require (Library.blind_register stmt name ty maxLength)

lemma blind_setArraySize (s : Statement) (size : Nat) : Blind (s.setArraySize size) := by
  refine (Blind.live _).bind fun stmt => (Blind.data s).bind fun d => (Blind.requireStatus d _ _).bind fun _ => ?_
  dsimp only
  generalize (if d.binds.isEmpty then BindIndex.maxSize else d.initialArraySize) = limit
  split
  · exact .throw_bind _ _
  · exact (Blind.require (Library.blind_setAttr _ _ _)).bind fun _ => s.blind_putData _

lemma blind_allowRebinding (s : Statement) (allow : Bool) : Blind (s.allowRebinding allow) :=
  (Blind.data s).bind fun _ => s.blind_putData _

lemma blind_setFetchMode (s : Statement) (mode : FetchMode) : Blind (s.setFetchMode mode) := by
  refine (Blind.live _).bind fun stmt => ?_
  have hset : Blind (do
      Act.require id (Library.setAttr stmt .fetchMode (.bool (mode = .scrollable)))
      let d ← s.data
      Act.update (s.putData { d with fetchMode := mode })) :=
    (Blind.require (Library.blind_setAttr _ _ _)).bind fun _ => (Blind.data s).bind fun _ => s.blind_putData _
  dsimp only
  split
  · refine s.conn.blind_serverVersion.bind fun version => ?_
    split
    · exact .throw_bind _ _
    · exact hset
  · exact hset

lemma blind_affectedRows (s : Statement) : Blind s.affectedRows := by
  refine (Blind.live _).bind fun stmt => (Blind.require (Library.blind_getAttr stmt .rowCount)).bind fun v => ?_
  split
  · exact .pure _
  · exact .throw _

lemma blind_takeResultset (s : Statement) (operation : String) {ask : Address → Library → Option Address × Library}
    (hask : ∀ stmt, Library.Blind (ask stmt)) : Blind (s.takeResultset operation ask) := by
  refine (Blind.live _).bind fun stmt => (Blind.data s).bind fun d => (Blind.requireStatus d _ _).bind fun _ =>
    (Blind.optional (hask stmt)).bind fun r => ?_
  split
  · exact .pure _
  · exact (Wrapper.blind_wrap _ _ _ _ _ _).bind fun _ => .pure _

/-! ### Variables -/

lemma blind_place (plan : BindPlan) : World.Blind (BindObject.place plan) := by
  intro w w' h
  unfold BindObject.place World.allocate
  dsimp only
  rw [h.memory]
  exact ⟨rfl, { h with memory := congrArg (· + 1) h.memory }⟩

lemma blind_make (plan : BindPlan) : Blind (BindObject.make plan) := by
  unfold BindObject.make
  split
  · exact .modifyGet (blind_place plan)
  · exact .throw _

lemma blind_bindPlanned (s : Statement) (index : BindIndex) (ty : ValueType)
    (plan : StatementData → String → BindPlan) : Blind (s.bindPlanned index ty plan) := by
  refine (Blind.live _).bind fun stmt => (Blind.ofExcept _).bind fun name => (Blind.data s).bind fun d =>
    (Blind.requireStatus d _ _).bind fun _ => Blind.get fun w w' hw => ?_
  dsimp only
  rw [hw.envs]
  split
  · exact .throw_bind hw _ _ _
  · refine (blind_make _).bind (fun o => ?_) hw
    exact (Blind.undoing (fun _ _ h => h.freeBuffers _) (Blind.require (Library.blind_bind stmt o.desc))).bind fun _ =>
      (Blind.note _).bind fun _ => Blind.update fun _ _ h => (s.alike_putData _ h).freeBuffers _

/-- To bind a variable agrees when the variable holds the same. -/
theorem agree_bind (s : Statement) (index : BindIndex) {var : Nat} (direction : Direction) (kind : VectorKind)
    (size : Nat) (h : w.Alike w') (hv : w'.vars.get? var = w.vars.get? var) :
    Agree (s.bind index var direction kind size) (s.bind index var direction kind size) w w' := by
  refine Agree.get ?_
  rw [hv]
  split
  · exact .pure h _
  · exact s.blind_bindPlanned _ _ _ h

end Statement

/-! ### Objects of any kind -/

lemma Connection.blind_prepare (c : Connection) (sql : String) : Blind (c.prepare sql) :=
  (Statement.blind_create c).bind fun s =>
    (Blind.undoing (fun _ _ => s.alike_drop) (s.blind_prepare .prepare sql)).bind fun _ => .pure _

namespace Item

lemma alike_drop (i : Item) (h : w.Alike w') : (i.drop w).Alike (i.drop w') := by
  cases i with
  | statement s => exact s.alike_drop h
  | environment e => exact e.alike_drop h
  | connection c => exact c.handle.alike_drop h
  | resultset rs => exact rs.handle.alike_drop h
  | handle x => exact x.alike_drop h

lemma blind_clone (i : Item) : World.Blind i.clone := by
  intro w w' h
  cases i with
  | connection c => exact ⟨congrArg Item.connection (c.blind_clone h).1, (c.blind_clone h).2⟩
  | _ => exact ⟨congrArg Item.handle (Wrapper.blind_clone _ h).1, (Wrapper.blind_clone _ h).2⟩

end Item
end DbClient
