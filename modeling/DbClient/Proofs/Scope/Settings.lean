import DbClient.Proofs.Scope.Handles
import DbClient.Proofs.Moves.Binding

/-! The operations on the variables and the settings of statements and connections as steps. A setting that is kept
twice changes in one step, here and in the native library. -/
namespace DbClient
open Act World

variable {S : Scope} {w : World} {id : Nat} {n : Node}

/-! ### Connections -/

namespace Connection
variable {c : Connection}

/-- The native library keeps such attributes for itself. -/
def Private (attr : Attr) : Prop := attr ≠ .bindArraySize ∧ attr ≠ .fetchMode

instance (attr : Attr) : Decidable (Private attr) := inferInstanceAs (Decidable (_ ∧ _))

lemma tells_setAttr (hn : ∀ id, c.handle.node = some id → S.node id) {attr : Attr} (ha : Private attr) (v : Value) :
    Tells S w (c.setAttr attr v) w :=
  Tells.live (.refl w) fun id n hid hl =>
    Tells.call (.setAttr n.native attr v) (fun _ => rfl) (ClientError.source?_withHandle n.native) (fun h => h)
      (hn id hid) hl rfl fun h => (h.elim ha.1 ha.2).elim

lemma tells_setTimeoutList (hn : ∀ id, c.handle.node = some id → S.node id) {ts : List (Attr × Option Duration)}
    (ha : ∀ t ∈ ts, Private t.1) : Tells S w (c.setTimeoutList ts) w := by
  induction ts generalizing w with
  | nil => exact Tells.pure (.refl w) _
  | cons t rest ih =>
    obtain ⟨attr, limit⟩ := t
    have hrest : ∀ {w}, Tells S w (c.setTimeoutList rest) w := ih fun t ht => ha t (List.mem_cons_of_mem _ ht)
    cases limit with
    | none => exact hrest
    | some d =>
      exact Tells.seq (.checked (.refl w) _) fun _ _ _ _ =>
        (tells_setAttr hn (ha _ List.mem_cons_self) _).seq fun _ _ _ _ => hrest

lemma tells_setTimeouts (hn : ∀ id, c.handle.node = some id → S.node id) (t : Timeouts) :
    Tells S w (c.setTimeouts t) w :=
  tells_setTimeoutList hn fun p hp => by
    simp only [Timeouts.toList, List.mem_cons, List.not_mem_nil, or_false] at hp
    obtain rfl | rfl | rfl := hp
    · exact show Private .callTimeout by decide
    · exact show Private .sendTimeout by decide
    · exact show Private .receiveTimeout by decide

lemma tells_setCredentials (hn : ∀ id, c.handle.node = some id → S.node id) (cr : Credentials) :
    Tells S w (c.setCredentials cr) w := by
  cases cr with
  | password username password =>
    exact (tells_setAttr hn (by decide) _).seq fun _ _ _ _ => tells_setAttr hn (by decide) _
  | external => exact tells_setAttr hn (by decide) _

/-- The version is read, with whatever handle. -/
lemma tells_serverVersion (c : Connection) : Tells S w c.serverVersion w := by
  refine Tells.live (.refl w) fun id n hid hl => ?_
  have hask : Tells S w (Act.require (ClientError.withHandle n.native) (Library.getAttr n.native .serverVersion)) w :=
    Tells.require (.getAttr n.native .serverVersion) (fun _ => rfl) (ClientError.source?_withHandle n.native)
      (fun h => h) (.single (.look hl _ rfl trivial trivial))
  refine hask.seq fun v u _ _ => ?_
  split
  · exact Tells.throw (.refl u) rfl
  · split
    · exact Tells.pure (.refl u) _
    · exact Tells.throw (.refl u) rfl

lemma tells_breakCall (hn : ∀ id, c.handle.node = some id → S.node id) : Tells S w c.breakCall w :=
  Tells.live (.refl w) fun id n hid hl =>
    Tells.call (.breakCall n.native) (fun _ => rfl) (ClientError.source?_withHandle n.native) (fun h => h) (hn id hid)
      hl rfl trivial

lemma tells_setFailoverHandler (hr : S.registry) (handler : Option FailoverHandler) :
    Tells S w (c.setFailoverHandler handler) w :=
  Tells.live (.refl w) fun _ n _ _ => Tells.update _ (StepsWithin.setCallback hr c.env n.native _ w)

end Connection

/-! ### Statements -/

/-- A name that cannot be made is no failure of the native library. -/
lemma BindIndex.source?_of_toName {index : BindIndex} {e : ClientError} (h : index.toName = .error e) :
    e.source? = none := by
  cases index with
  | name s => cases h
  | position n =>
    simp only [toName] at h
    split at h
    · obtain rfl := Except.error.inj h
      rfl
    · cases h

namespace Statement
variable {s : Statement}

lemma run_data (s : Statement) (w : World) : s.data.run w = (match s.data? w with
    | some d => .ok d
    | none => .error (.nullHandle .statement), w) := by
  unfold data
  rw [run_bind, run_get]
  dsimp only
  cases s.data? w with
  | none => rfl
  | some d => rfl

/-- What stands against a bind is known without the native library. -/
lemma source?_of_obstacle {d : StatementData} {maxBinds : Nat} {name : String} {ty : ValueType} {e : ClientError}
    (h : bindObstacle? d maxBinds name ty = some e) : e.source? = none := by
  simp only [bindObstacle?] at h
  split at h <;> split at h
  · obtain rfl := Option.some.inj h
    rfl
  · split at h
    · obtain rfl := Option.some.inj h
      rfl
    · cases h
  · obtain rfl := Option.some.inj h
    rfl
  · split at h
    · obtain rfl := Option.some.inj h
      rfl
    · cases h

lemma tells_bindPlanned (hn : ∀ id, s.handle.node = some id → S.node id) (index : BindIndex) (ty : ValueType)
    {plan : StatementData → String → BindPlan}
    (hplan : ∀ d name, (plan d name).name = name ∧ (plan d name).MadeFor d w) :
    Tells S w (s.bindPlanned index ty plan) w := by
  refine Tells.live (.refl w) fun id n hid hl => ?_
  cases hname : index.toName with
  | error e => exact Tells.throw_bind (.refl w) (BindIndex.source?_of_toName hname)
  | ok name =>
    refine Tells.dataOf (.refl w) hid hl fun d hx => Tells.requireStatus (.refl w) fun hrank => Tells.get ?_
    dsimp only
    split
    · rename_i e hobstacle
      exact Tells.throw_bind (.refl w) (source?_of_obstacle hobstacle)
    · rename_i hfree
      generalize hp : plan d name = p
      obtain ⟨hpname, hmade⟩ : p.name = name ∧ p.MadeFor d w := hp ▸ hplan d name
      subst hpname
      refine Tells.make (.refl w) fun hfit => ?_
      have hl' : (BindObject.place p w).2.Live id n := hl
      rcases hb : Library.bind n.native (BindObject.place p w).1.desc (BindObject.place p w).2.library with ⟨_ | x, l⟩
      · -- the object is lost, with its buffer
        let i : Invocation := .bind n.native (BindObject.place p w).1.desc
        have hgave : Invocation.gave (none, l) = i.run w.library := congrArg Invocation.gave hb.symm
        have hnone : (i.run w.library).1 = false := (congrArg Prod.fst hgave).symm
        have hlib : (i.run w.library).2 = l := (congrArg Prod.snd hgave).symm
        have hseeks : ¬i.Seeks := fun h => h
        obtain ⟨e, herror, hrecords⟩ := Invocation.records_of_failed hseeks hnone
        have hcall : StepsWithin S w { w with library := (i.run w.library).2 } :=
          .work (hn id hid) hl (.call i rfl hnone)
        have hlost : StepsWithin S { w with library := (i.run w.library).2 }
            (World.freeBuffers [(BindObject.place p w).1.buffer]
              { (BindObject.place p w).2 with library := { l with error := none } }) := by
          rw [hlib]
          exact StepsWithin.trans (.single .forget) (.work (hn id hid) (n := n) hl (.scratch _))
        refine Tells.of_run (b := throw ((ClientError.withSql d.sql (.ofNative e)).withBind p.name)) ?_
          (Tells.failed hrecords hcall (by simp) hlost)
        rw [run_bind, undoing, run_tryCatch, run_require, hb]
        dsimp only
        rw [Library.lastError, ← hlib, herror]
        rfl
      · have hv : World.Live { (BindObject.place p w).2 with
            library := l, log := w.log ++ [.notice (.bound n.native p.name p.ty p.direction)] } id n := hl
        have hbound : StepsWithin S w (World.rebound id d (BindObject.place p w).1 { (BindObject.place p w).2 with
            library := l, log := w.log ++ [.notice (.bound n.native p.name p.ty p.direction)] }) :=
          .work (hn id hid) hl (.bind hx hrank (allowed_of_no_obstacle hfree) hb hmade hfit)
        rw [← putData_rebound hid hv] at hbound
        refine Tells.of_ok (x := ()) ?_ hbound
        rw [run_bind, undoing, run_tryCatch, run_require, hb]
        rfl

lemma tells_bind (hn : ∀ id, s.handle.node = some id → S.node id) (index : BindIndex) (var : Nat)
    (direction : Direction) (kind : VectorKind) (size : Nat) : Tells S w (s.bind index var direction kind size) w := by
  apply Tells.get
  split
  · exact Tells.pure (.refl w) _
  · rename_i v hv
    exact tells_bindPlanned hn index _ fun d name =>
      ⟨(aim_ofVar name var direction kind size _ v).1, madeFor_ofVar hv d name direction kind size⟩

lemma tells_register (hn : ∀ id, s.handle.node = some id → S.node id) (name : String) (ty : ValueType)
    (maxLength : Nat) : Tells S w (s.register name ty maxLength) w := by
  refine Tells.live (.refl w) fun id n hid hl =>
    Tells.dataOf (.refl w) hid hl fun d _ => Tells.requireStatus (.refl w) fun _ => ?_
  split
  · exact Tells.throw_bind (.refl w) rfl
  · exact Tells.call (.register n.native name ty maxLength) (fun _ => rfl) (fun e => by simp) (fun h => h) (hn id hid)
      hl rfl trivial

lemma tells_setArraySize (hn : ∀ id, s.handle.node = some id → S.node id) (size : Nat) :
    Tells S w (s.setArraySize size) w := by
  refine Tells.live (.refl w) fun id n hid hl =>
    Tells.dataOf (.refl w) hid hl fun d hx => Tells.requireStatus (.refl w) fun _ => ?_
  dsimp only
  generalize hlimit : (if d.binds.isEmpty then BindIndex.maxSize else d.initialArraySize) = limit
  split
  · exact Tells.throw_bind (.refl w) rfl
  · rename_i hwithin
    rw [← hlimit] at hwithin
    refine Tells.require_then (.setAttr n.native .bindArraySize (.int .uint64 (Fixed.wrap .uint64 size))) (fun _ => rfl)
      (ClientError.source?_withSql d.sql) (fun h => h)
      (fun hfail => .work (hn id hid) hl (.call _ rfl fun _ => hfail)) fun x l hc => Tells.update _ ?_
    have hl' : World.Live { w with library := l } id n := hl
    rw [putData_of_live hid hl']
    exact .work (hn id hid) hl (.resize hx hc hwithin)

lemma tells_allowRebinding (hn : ∀ id, s.handle.node = some id → S.node id) (allow : Bool) :
    Tells S w (s.allowRebinding allow) w :=
  Tells.data (.refl w) fun id n d hid hl hx => Tells.update _ <| by
    rw [putData_of_live hid hl]
    exact .work (hn id hid) hl (.tune hx rfl rfl Iff.rfl ⟨rfl, rfl⟩ rfl)

lemma tells_setFetchMode (hn : ∀ id, s.handle.node = some id → S.node id) (mode : FetchMode) :
    Tells S w (s.setFetchMode mode) w := by
  refine Tells.live (.refl w) fun id n hid hl => ?_
  have hset : ∀ v, v.Live id n → Tells S v (do
      Act.require (fun e => e) (Library.setAttr n.native .fetchMode (.bool (mode = .scrollable)))
      let d ← s.data
      Act.update (s.putData { d with fetchMode := mode }) : Act Unit) v := by
    intro v hlv
    refine Tells.require_then (.setAttr n.native .fetchMode (.bool (mode = .scrollable))) (fun _ => rfl) honest_id
      (fun h => h) (fun hfail => .work (hn id hid) hlv (.call _ rfl fun _ => hfail)) fun x l hc => ?_
    have hl' : World.Live { v with library := l } id n := hlv
    cases hx : s.data? { v with library := l } with
    | none =>
      have hno : ∀ d, ¬n.Keeps d := fun d hd => by
        rw [data?_eq_some.mpr ⟨id, n, hid, hl', hd⟩] at hx
        cases hx
      refine Tells.of_run (b := throw (.nullHandle .statement)) ?_
        (Tells.throw (.work (hn id hid) hlv (.mark hno hc)) rfl)
      rw [run_bind, run_data, hx]
      rfl
    | some d =>
      have hkept := keeps_of_data? hid hl' hx
      have hturn : StepsWithin S v (s.putData { d with fetchMode := mode } { v with library := l }) := by
        rw [putData_of_live hid hl']
        exact .work (hn id hid) hlv (.turn hkept hc)
      refine Tells.of_ok (x := ()) ?_ hturn
      rw [run_bind, run_data, hx]
      rfl
  split
  · refine (Connection.tells_serverVersion s.conn).seq fun version v hrun _ => ?_
    have hlv : v.Live id n := (s.conn.quiet_serverVersion.rel hrun).live ▸ hl
    split
    · exact Tells.throw_bind (.refl v) rfl
    · exact hset v hlv
  · exact hset w hl

lemma tells_affectedRows (hn : ∀ id, s.handle.node = some id → S.node id) : Tells S w s.affectedRows w := by
  refine Tells.live (.refl w) fun id n hid hl => ?_
  have hask : Tells S w (Act.require (fun e => e) (Library.getAttr n.native .rowCount)) w :=
    Tells.call (.getAttr n.native .rowCount) (fun _ => rfl) honest_id (fun h => h) (hn id hid) hl rfl trivial
  refine hask.seq fun v u _ _ => ?_
  split
  · exact Tells.pure (.refl u) _
  · exact Tells.throw (.refl u) rfl

end Statement
end DbClient
