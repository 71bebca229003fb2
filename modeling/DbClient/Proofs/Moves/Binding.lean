import DbClient.Proofs.Moves.Statements

/-! The operations on the variables and the settings of a statement as paths of moves. -/
namespace DbClient
open Act World

variable {t : Terms} {hs : Multiset Nat} {w w' : World} {id : Nat} {n : Node}

namespace Statement

/-- A name that is taken is bound again only where that is allowed. -/
lemma allowed_of_no_obstacle {d : StatementData} {maxBinds : Nat} {name : String} {ty : ValueType}
    (h : bindObstacle? d maxBinds name ty = none) :
    (∃ o ∈ d.binds.objects, o.name = name) → d.allowRebinding = true := by
  rintro ⟨o, ho, rfl⟩
  unfold bindObstacle? at h
  split at h
  · split at h
    · cases h
    · rename_i hallow
      simpa using hallow
  · rename_i hnone
    have := List.find?_eq_none.mp hnone o ho
    simp at this

/-- An object that the native library refuses leaves nothing behind but a number that is not used again. -/
lemma quiet_refused {plan : BindPlan} {l : Library} (hl : w.library.Quiet w.Answers l) :
    Quiet w (World.freeBuffers [(BindObject.place plan w).1.buffer]
      { (BindObject.place plan w).2 with library := l }) :=
  ⟨rfl, rfl, id, fun _ => rfl, hl, .add_erase _ _⟩

lemma putData_rebound {s : Statement} (hid : s.handle.node = some id) (hl : w.Live id n) (d : StatementData)
    (o : BindObject) : (s.putData { d with binds := (d.binds.add o d.allowRebinding).2 } w).freeBuffers
      ((d.binds.add o d.allowRebinding).1.map BindObject.buffer).toList = w.rebound id d o := by
  rw [putData_of_live hid hl]
  rfl

lemma course_bindPlanned (s : Statement) (index : BindIndex) (ty : ValueType)
    {plan : StatementData → String → BindPlan}
    (hplan : ∀ d name, (plan d name).name = name ∧ (plan d name).MadeFor d w) :
    Does (Course t hs) (s.bindPlanned index ty plan) w := by
  refine Does.live fun id n hid hl => ?_
  cases index.toName with
  | error e => exact Does.throw_bind e
  | ok name =>
    refine Does.dataOf hid hl fun d hx => Does.requireStatus fun hrank => Does.get ?_
    dsimp only
    split
    · exact Does.throw_bind _
    · rename_i hfree
      generalize hp : plan d name = p
      obtain ⟨hname, hmade⟩ : p.name = name ∧ p.MadeFor d w := hp ▸ hplan d name
      subst hname
      refine Does.make fun hfit => ?_
      have hl' : (BindObject.place p w).2.Live id n := hl
      rw [run_bind, undoing, run_tryCatch, run_require]
      rcases hb : Library.bind n.native (BindObject.place p w).1.desc (BindObject.place p w).2.library with ⟨_ | x, l⟩
      · have hq : w.library.Quiet w.Answers l := Library.Quiet.bind ⟨id, n, hl, rfl⟩ hb
        exact Course.quiet (quiet_refused (hq.trans (.lastError l)))
      · have hv : World.Live { (BindObject.place p w).2 with
            library := l, log := w.log ++ [.notice (.bound n.native p.name p.ty p.direction)] } id n := hl
        have hm : Move t hs w hs (World.rebound id d (BindObject.place p w).1 { (BindObject.place p w).2 with
            library := l, log := w.log ++ [.notice (.bound n.native p.name p.ty p.direction)] }) :=
          .bind hl hx hrank (allowed_of_no_obstacle hfree) hb hmade hfit
        rw [← putData_rebound hid hv] at hm
        exact Course.move hm

/-- What is planned for a variable is called and directed as it should be. -/
lemma aim_ofVar (name : String) (var : Nat) (direction : Direction) (kind : VectorKind) (size arraySize : Nat)
    (v : HostVar) : (BindPlan.ofVar name var direction kind size arraySize v).name = name ∧
      (BindPlan.ofVar name var direction kind size arraySize v).var = var ∧
      (BindPlan.ofVar name var direction kind size arraySize v).direction = direction := by
  cases v <;> exact ⟨rfl, rfl, rfl⟩

lemma madeFor_ofVar {var : Nat} {v : HostVar} (hv : w.vars.get? var = some v) (d : StatementData) (name : String)
    (direction : Direction) (kind : VectorKind) (size : Nat) :
    (BindPlan.ofVar name var direction kind size (max d.arraySize d.initialArraySize) v).MadeFor d w := by
  obtain ⟨h1, h2, h3⟩ := aim_ofVar name var direction kind size (max d.arraySize d.initialArraySize) v
  exact ⟨v, kind, size, (congrArg w.vars.get? h2).trans hv, by rw [h1, h2, h3]⟩

lemma course_bind (s : Statement) (index : BindIndex) (var : Nat) (direction : Direction) (kind : VectorKind)
    (size : Nat) : Does (Course t hs) (s.bind index var direction kind size) w := by
  apply Does.get
  split
  · exact Does.pure _
  · rename_i v hv
    exact s.course_bindPlanned index _ fun d name =>
      ⟨(aim_ofVar name var direction kind size _ v).1, madeFor_ofVar hv d name direction kind size⟩

lemma quiet_register (s : Statement) (name : String) (ty : ValueType) (maxLength : Nat) :
    Does Quiet (s.register name ty maxLength) w := by
  refine Does.live fun id n hid hl => Does.dataOf hid hl fun d _ => Does.requireStatus fun _ => ?_
  split
  · exact Does.throw_bind _
  · exact Quiet.require fun l => .register ⟨id, n, hl, rfl⟩ name ty maxLength l

/-! ### Settings -/

/-- A change of settings. -/
lemma course_tune {s : Statement} (hid : s.handle.node = some id) (hl : w.Live id n) {d d' : StatementData}
    (hx : n.Keeps d) (hb : d'.binds = d.binds) (hs' : d'.sql = d.sql) (hr : d'.status = d.status)
    (ha : d.Resized d') : Does (Course t hs) (update (s.putData d')) w := by
  change Course t hs w (s.putData d' w)
  rw [putData_of_live hid hl]
  exact Course.move (.tune hl hx hb hs' (by rw [hr]) ha)

/-- A size within the limit that `setArraySize` checks is one that the array can come to. -/
lemma resized_of_within {d : StatementData} {size : Nat}
    (h : ¬(size < 1 ∨ (if d.binds.isEmpty then BindIndex.maxSize else d.initialArraySize) < size)) :
    d.Resized { d with
      arraySize := size, initialArraySize := if d.binds.isEmpty then size else d.initialArraySize } := by
  refine .inr ⟨by change 1 ≤ size; omega, ?_⟩
  by_cases he : d.binds.isEmpty = true
  · simp only [he, if_true]
  · simp only [he, Bool.false_eq_true, if_false] at h ⊢
    exact ⟨trivial, by omega⟩

lemma course_setArraySize (s : Statement) (size : Nat) : Does (Course t hs) (s.setArraySize size) w := by
  refine Does.live fun id n hid hl => Does.dataOf hid hl fun d hx => Does.requireStatus fun _ => ?_
  dsimp only
  generalize hlimit : (if d.binds.isEmpty then BindIndex.maxSize else d.initialArraySize) = limit
  split
  · exact Does.throw_bind _
  · rename_i hwithin
    rw [← hlimit] at hwithin
    have hset : Does Quiet (require (ClientError.withSql d.sql) (Library.setAttr n.native .bindArraySize
        (.int .uint64 (Fixed.wrap .uint64 size)))) w := Quiet.require fun l => .setAttr ⟨id, n, hl, rfl⟩ _ _ l
    refine (Course.ofQuiet hset).bind fun _ v hrun _ => ?_
    have hv : v.Live id n := (hset.rel hrun).live ▸ hl
    exact course_tune hid hv hx rfl rfl rfl (resized_of_within hwithin)

lemma course_allowRebinding (s : Statement) (allow : Bool) : Does (Course t hs) (s.allowRebinding allow) w :=
  Does.data fun _ _ _ hid hl hx => course_tune hid hl hx rfl rfl rfl (.inl ⟨rfl, rfl⟩)

lemma course_setFetchMode (s : Statement) (mode : FetchMode) : Does (Course t hs) (s.setFetchMode mode) w := by
  refine Does.live fun id n hid hl => ?_
  have hset : ∀ v, Quiet w v → Does (Course t hs) (do
      Act.require (fun e => e) (Library.setAttr n.native .fetchMode (.bool (mode = .scrollable)))
      let d ← s.data
      Act.update (s.putData { d with fetchMode := mode }) : Act Unit) v := by
    intro v hv
    have hlv : v.Live id n := hv.live ▸ hl
    refine (Course.ofQuiet (Quiet.require fun l => .setAttr ⟨id, n, hlv, rfl⟩ _ _ l)).seq fun _ u _ => ?_
    exact Does.data fun _ _ _ hid hl hx => course_tune hid hl hx rfl rfl rfl (.inl ⟨rfl, rfl⟩)
  split
  · refine (Course.ofQuiet s.conn.quiet_serverVersion).bind fun version v hrun _ => ?_
    split
    · exact Does.throw_bind _
    · exact hset v (s.conn.quiet_serverVersion.rel hrun)
  · exact hset w (.refl w)

lemma quiet_affectedRows (s : Statement) : Does Quiet s.affectedRows w := by
  refine Does.live fun id n _ hl => (Quiet.require fun l => .getAttr ⟨id, n, hl, rfl⟩ _ l).seq fun v _ _ => ?_
  split
  · exact Does.pure _
  · exact Does.throw _

end Statement
end DbClient
