import DbClient.Proofs.Transfer.Faults
import DbClient.Proofs.Preparation

/-! Executions that fail. The variables travel one after the other, so that an exchange which fails has been done for
the objects before the one where it fails and not begun for those behind it; the error tells the name of that one. -/
namespace DbClient
open Act World

namespace Act
variable {α β : Type} {P : ClientError → Prop} {a : Act α} {w w' : World} {e : ClientError}

/-- All errors with which an operation can fail have a property. -/
def Throws (P : ClientError → Prop) (a : Act α) : Prop := ∀ w e w', a.run w = (.error e, w') → P e

namespace Throws

lemma pure (x : α) : Throws P (Pure.pure x : Act α) := fun _ _ _ h => by cases h

lemma throw (he : P e) : Throws P (MonadExcept.throw e : Act α) := fun _ _ _ h => by
  obtain ⟨h, -⟩ := Prod.mk.inj h
  exact Except.error.inj h ▸ he

lemma update (f : World → World) : Throws P (Act.update f) := fun _ _ _ h => by cases h

lemma bind {f : α → Act β} (ha : Throws P a) (hf : ∀ x, Throws P (f x)) : Throws P (a >>= f) := fun w e w' h => by
  obtain h | ⟨x, v, -, h⟩ := error_of_bind h
  · exact ha w e w' h
  · exact hf x v e w' h

lemma get {f : World → Act β} (hf : ∀ w, Throws P (f w)) : Throws P (MonadState.get >>= f) := fun w => hf w w

lemma require {dress : ClientError → ClientError} {f : Library → Option α × Library}
    (he : ∀ source, P (dress (.ofNative source))) : Throws P (Act.require dress f) := fun w e w' h => by
  rw [run_require] at h
  rcases hf : f w.library with ⟨_ | x, l⟩ <;> rw [hf] at h
  · obtain ⟨h, -⟩ := Prod.mk.inj h
    exact Except.error.inj h ▸ he _
  · cases h

end Throws
end Act

/-- An error that the native library has just left. -/
def ClientError.Bare (e : ClientError) : Prop := ∃ source, e = .ofNative source

/-- An error of an exchange: the native library has left it, or bytes stand for no value of a type. -/
def ClientError.Exchange (e : ClientError) : Prop := e.Bare ∨ ∃ ty, e = .conversion ty

namespace BindObject
variable {w w' v : World} {stmt : Address} {o : BindObject} {os : List BindObject} {ty : ValueType} {e : ClientError}
  {i : Nat}

lemma throws_reportSize (pos size : Nat) : Throws ClientError.Bare (o.reportSize stmt pos size) :=
  Throws.require fun source => ⟨source, rfl⟩

lemma throws_askSize (pos limit : Nat) : Throws ClientError.Exchange (o.askSize stmt pos limit) :=
  (Throws.require fun source => .inl ⟨source, rfl⟩).bind fun _ => Throws.pure _

lemma throws_pushFrom (xs : List (Host ty)) : Throws ClientError.Bare (o.pushFrom stmt ty i xs) := by
  induction xs generalizing i with
  | nil => exact Throws.pure _
  | cons x rest ih =>
    rw [pushFrom_cons]
    refine Throws.get fun w => (Throws.update _).bind fun _ => ?_
    split
    · exact (throws_reportSize _ _).bind fun _ => ih
    · exact ih

/-- What goes wrong on the way into a buffer is known from the native library. -/
theorem throws_push (o : BindObject) (stmt : Address) (arraySize : Nat) :
    Throws ClientError.Bare (o.push stmt arraySize) := by
  refine Throws.get fun w => ?_
  split
  · split
    · exact (Throws.update _).bind fun _ => (throws_reportSize _ _).bind fun _ => Throws.update _
    · exact Throws.pure _
  · split
    · exact (Throws.update _).bind fun _ => Throws.update _
    · exact Throws.pure _
  · split
    · exact (throws_pushFrom _).bind fun _ => Throws.update _
    · exact Throws.pure _
  · exact Throws.pure _

lemma throws_pullFrom (xs : List (Host ty)) (count : Nat) :
    Throws ClientError.Exchange (o.pullFrom stmt ty xs i count) := by
  induction count generalizing xs i with
  | zero => exact Throws.pure _
  | succ count ih =>
    have hask : Throws ClientError.Exchange (o.askLength stmt ty i) := by
      unfold askLength
      split
      · exact throws_askSize _ _
      · exact Throws.pure _
    rw [pullFrom_succ]
    refine hask.bind fun size => Throws.get fun w => ?_
    split
    · exact Throws.throw (.inr ⟨ty, rfl⟩)
    · exact (Throws.update _).bind fun _ => ih _

theorem throws_pull (o : BindObject) (stmt : Address) (arraySize : Nat) :
    Throws ClientError.Exchange (o.pull stmt arraySize) := by
  unfold BindObject.pull
  split
  · refine Throws.get fun w => ?_
    split
    · refine (throws_askSize _ _).bind fun count => Throws.get fun v => ?_
      split
      · exact Throws.throw (.inr ⟨_, rfl⟩)
      · exact (Throws.update _).bind fun _ => Throws.update _
    · refine Throws.get fun v => ?_
      split
      · exact Throws.throw (.inr ⟨_, rfl⟩)
      · exact (Throws.update _).bind fun _ => Throws.update _
    · exact (throws_pullFrom _ _).bind fun _ => Throws.update _
    · exact Throws.pure _
  · exact Throws.pure _

/-! ### Where an exchange fails -/

/-- An exchange of objects fails at one of them, when those before it have been exchanged. -/
structure FailsAt (exchange : BindObject → Act Unit) (before : List BindObject) (o : BindObject) (w u : World)
    (e : ClientError) (w' : World) : Prop where
  before : (exchangeAll exchange before).run w = (.ok (), u)
  fails : (exchange o).run u = (.error e, w')

variable {exchange : BindObject → Act Unit} {before after : List BindObject} {u : World}

/-- The exchange of all objects ends there, with an error that tells the name of the object. -/
theorem FailsAt.run (h : FailsAt exchange before o w u e w') (after : List BindObject) :
    (exchangeAll exchange (before ++ o :: after)).run w = (.error (e.withBind o.name), w') := by
  obtain ⟨hbefore, hfails⟩ := h
  induction before generalizing w with
  | nil =>
    obtain ⟨-, rfl⟩ := Prod.mk.inj hbefore
    rw [List.nil_append, exchangeAll, run_bind, dressed, run_tryCatch, hfails]
    rfl
  | cons p before ih =>
    obtain ⟨_, v, hp, hrest⟩ := ok_of_bind hbefore
    rw [List.cons_append, exchangeAll, run_bind, hp]
    exact ih hrest

/-- An exchange of objects that fails has failed at one of them. -/
theorem exists_failsAt (h : (exchangeAll exchange os).run w = (.error e, w')) : ∃ before o after u e',
    os = before ++ o :: after ∧ FailsAt exchange before o w u e' w' ∧ e = e'.withBind o.name := by
  induction os generalizing w with
  | nil => cases h
  | cons p rest ih =>
    obtain h | ⟨_, v, hp, hrest⟩ := error_of_bind h
    · obtain ⟨e', hfails, rfl⟩ := error_of_dressed h
      exact ⟨[], p, rest, w, e', rfl, ⟨rfl, hfails⟩, rfl⟩
    · obtain ⟨before, o, after, u, e', rfl, ⟨hbefore, hfails⟩, rfl⟩ := ih hrest
      refine ⟨p :: before, o, after, u, e', rfl, ⟨?_, hfails⟩, rfl⟩
      rw [exchangeAll, run_bind, hp]
      exact hbefore

end BindObject

/-! ### Calls on the way into the buffers -/

/-- Of the native library nothing has been asked but to take actual lengths. -/
def World.Measures (w w' : World) : Prop := ∃ cs, w'.calls = w.calls ++ cs ∧ ∀ c ∈ cs, c.1 = some .dataSize

namespace World.Measures
variable {w w' w'' : World}

lemma of_eq (h : w'.library.calls = w.library.calls) : Measures w w' :=
  ⟨[], by rw [World.calls, World.calls, h, List.append_nil], nofun⟩

lemma trans (h : Measures w w') (h' : Measures w' w'') : Measures w w'' := by
  obtain ⟨cs, hcs, hc⟩ := h
  obtain ⟨cs', hcs', hc'⟩ := h'
  refine ⟨cs ++ cs', by rw [hcs', hcs, List.append_assoc], fun c hmem => ?_⟩
  exact (List.mem_append.mp hmem).elim (hc c) (hc' c)

instance : Std.Refl Measures := ⟨fun _ => of_eq rfl⟩

instance : IsTrans World Measures := ⟨fun _ _ _ => trans⟩

end World.Measures

lemma Library.calls_setDataSize (stmt : Address) (name : String) (pos size : Nat) (l : Library) :
    (Library.setDataSize stmt name pos size l).2.calls = l.calls ++ [⟨some .dataSize, stmt, l.handles⟩] := by
  unfold setDataSize run
  dsimp only
  split
  · rfl
  · unfold withBound
    split
    · rfl
    · split
      · dsimp only
        split <;> rfl
      · rfl

lemma BindObject.measures_loading (stmt : Address) (o : BindObject) :
    Loading World.Measures (fun _ => True) stmt o where
  lasts _ _ _ _ := trivial
  write _ _ _ := .of_eq rfl
  report w pos size _ := Does.require
    ⟨[(some .dataSize, stmt)], by simp [World.calls, Library.calls_setDataSize], by simp⟩ fun _ => .of_eq rfl
  note _ _ := .of_eq rfl

lemma BindsHolder.measures_push (h : BindsHolder) (stmt : Address) (arraySize : Nat) (w : World) :
    Does World.Measures (h.push stmt arraySize) w :=
  BindObject.does_exchangeAll (fun _ _ _ _ => trivial)
    (fun o _ _ hw => (BindObject.measures_loading stmt o).push hw arraySize) trivial

/-! ### The phases of an execution -/

namespace Statement

/-- Where an execution can fail: on the way of an object into its buffer, in the native library, or on the way of an
object out of its buffer. -/
inductive Phase where
  | push (before : List BindObject) (o : BindObject) (after : List BindObject)
  | native
  | pull (before : List BindObject) (o : BindObject) (after : List BindObject)

/-- An execution of a statement with its data fails in a phase, with all that comes before the failure done, and leaves
a world. -/
inductive FailsIn (s : Statement) (d : StatementData) (w : World) : Phase → World → Prop
  | push {before after : List BindObject} {o : BindObject} {count : Nat} {v u w' : World} {e : ClientError}
      (hobjects : d.binds.objects = before ++ o :: after) (hrelease : s.releaseResultsets.run w = (.ok count, v))
      (hfails : BindObject.FailsAt (fun o => o.push (s.handle.native w) d.arraySize) before o v u e w') :
      FailsIn s d w (.push before o after) w'
  | native {v : World} {l : Library} (hload : s.load.run w = (.ok (s.handle.native w, d), v))
      (hfails : Library.execute (s.handle.native w) d.arraySize v.memory v.library = (none, l)) :
      FailsIn s d w .native { v with library := l.lastError.2 }
  | pull {before after : List BindObject} {o : BindObject} {v u x w' : World} {e : ClientError}
      (hobjects : d.binds.objects = before ++ o :: after) (hload : s.load.run w = (.ok (s.handle.native w, d), v))
      (hexecuted : runNative (s.handle.native w) d.arraySize v = (some (), u))
      (hfails : BindObject.FailsAt (fun o => o.pull (s.handle.native w) d.arraySize) before o
        (s.putData { d with status := .executed } u) x e w') :
      FailsIn s d w (.pull before o after) w'

variable {s : Statement} {w w' v u x : World} {id count : Nat} {n : Node} {d : StatementData} {e : ClientError}
  {before after : List BindObject} {o : BindObject}

/-- After the release of its resultsets, the load of a statement is the way of its objects into their buffers. -/
lemma run_load (hw : w.Forest) (hid : s.handle.node = some id) (hd : w.HasData id n d)
    (hrank : Status.prepared.rank ≤ d.status.rank) (hrelease : s.releaseResultsets.run w = (.ok count, v)) :
    s.load.run w = (do
      Act.dressed (ClientError.withSql d.sql) (d.binds.push n.native d.arraySize)
      pure (n.native, d)).run v := by
  obtain ⟨count', v', ids, hr, hv, -⟩ := cleared_releaseResultsets hw hid hd.1
  obtain ⟨-, rfl⟩ := Prod.mk.inj (hr.symm.trans hrelease)
  have hdata : s.data? v' = some d := data?_eq_some.mpr ⟨id, _, hid, hv, hd.2⟩
  have hends : Ends s.load w fun r w' => (r, w') = (do
      Act.dressed (ClientError.withSql d.sql) (d.binds.push n.native d.arraySize)
      pure (n.native, d)).run v' :=
    Ends.liveOf hid hd.1 (Ends.after hrelease (Ends.dataOf hdata
      (Ends.requireStatus (fun _ => rfl) fun hbelow => absurd hrank (Nat.not_le_of_lt hbelow))))
  exact hends

/-- An execution that fails on the way into the buffers has got no further. -/
lemma run_of_push (hw : w.Forest) (hid : s.handle.node = some id) (hd : w.HasData id n d)
    (hrank : Status.prepared.rank ≤ d.status.rank) (hrelease : s.releaseResultsets.run w = (.ok count, v))
    (hpush : (d.binds.push n.native d.arraySize).run v = (.error e, w')) :
    s.executePrepared.run w = (.error (e.withSql d.sql), w') := by
  have hload : s.load.run w = (.error (e.withSql d.sql), w') := by
    rw [run_load hw hid hd hrank hrelease, run_bind, dressed, run_tryCatch, hpush]
    rfl
  rw [executePrepared, run_bind, hload]

lemma run_of_native {stmt : Address} {l : Library} (hload : s.load.run w = (.ok (stmt, d), v))
    (hnative : Library.execute stmt d.arraySize v.memory v.library = (none, l)) : s.executePrepared.run w =
      (.error (((ClientError.ofNative l.lastError.1).withSql d.sql).withHandle stmt),
        { v with library := l.lastError.2 }) := by
  rw [executePrepared, run_bind, hload]
  dsimp only
  rw [run_bind, run_modifyGet, runNative, hnative]
  rfl

lemma run_of_pull {stmt : Address} (hload : s.load.run w = (.ok (stmt, d), v))
    (hnative : runNative stmt d.arraySize v = (some (), u))
    (hpull : (d.binds.pull stmt d.arraySize).run (s.putData { d with status := .executed } u) = (.error e, w')) :
    s.executePrepared.run w = (.error (e.withSql d.sql), w') := by
  rw [executePrepared, run_bind, hload]
  dsimp only
  rw [run_bind, run_modifyGet, hnative]
  change (s.unload stmt d).run u = _
  rw [unload, run_bind, run_update]
  dsimp only
  rw [run_bind, dressed, run_tryCatch, hpull]
  rfl

/-- An execution of a statement that has been prepared fails in one of the phases. -/
theorem exists_failsIn (hw : w.Forest) (hid : s.handle.node = some id) (hd : w.HasData id n d)
    (hrank : Status.prepared.rank ≤ d.status.rank) (hrun : s.executePrepared.run w = (.error e, w')) :
    ∃ phase, s.FailsIn d w phase w' := by
  have hstmt : s.handle.native w = n.native := Wrapper.native_of_live hid hd.1
  obtain ⟨count, v, ids, hrelease, -, -⟩ := cleared_releaseResultsets hw hid hd.1
  have hload := run_load hw hid hd hrank hrelease
  obtain h | ⟨⟨stmt, d'⟩, u, hok, -⟩ := error_of_bind hrun
  · rw [hload] at h
    obtain h | ⟨_, _, -, h⟩ := error_of_bind h
    · obtain ⟨e', hpush, -⟩ := BindObject.error_of_dressed h
      obtain ⟨before, o, after, u, e', hobjects, hfails, -⟩ := BindObject.exists_failsAt hpush
      rw [← hstmt] at hfails
      exact ⟨_, .push hobjects hrelease hfails⟩
    · cases h
  · have hsame : stmt = n.native ∧ d' = d := by
      rw [hload] at hok
      obtain ⟨_, _, -, hend⟩ := ok_of_bind hok
      obtain ⟨hend, -⟩ := Prod.mk.inj hend
      obtain ⟨rfl, rfl⟩ := Prod.mk.inj (Except.ok.inj hend)
      exact ⟨rfl, rfl⟩
    obtain ⟨rfl, rfl⟩ := hsame
    obtain ⟨x, hexecuted, hunload⟩ | ⟨x, hnative, -, -⟩ := run_executePrepared hok hrun
    · rw [← hstmt] at hok hexecuted hunload
      obtain hput | ⟨_, y, hput, hrest⟩ := error_of_bind hunload
      · cases hput
      obtain ⟨-, rfl⟩ := Prod.mk.inj hput
      obtain hpull | ⟨_, _, -, hnote⟩ := error_of_bind hrest
      · obtain ⟨e', hpull, -⟩ := BindObject.error_of_dressed hpull
        obtain ⟨before, o, after, u, e', hobjects, hfails, -⟩ := BindObject.exists_failsAt hpull
        exact ⟨_, .pull hobjects hok hexecuted hfails⟩
      · cases hnote
    · obtain ⟨l, hl, -⟩ := error_of_runNative hnative
      obtain ⟨-, rfl⟩ := Prod.mk.inj (hrun.symm.trans (run_of_native hok hl))
      rw [← hstmt] at hok hl
      exact ⟨_, .native hok hl⟩

end Statement
end DbClient
