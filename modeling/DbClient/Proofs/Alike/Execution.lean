import DbClient.Proofs.Alike.Statements
import DbClient.Proofs.Transfer.Steady
import DbClient.Proofs.Transfer.Faults

/-! Executions in worlds that differ in data only. What comes out of the variables, and whether it can be read, may
differ, but nothing else: afterwards the worlds differ in data only, as they did before. -/
namespace DbClient
open Act World

namespace Library
variable {α : Type} {l l' : Library} {stmt a : Address} {name : String} {pos : Nat}

/-! ### Actual lengths -/

lemma Nearly.run_body {op : Primitive} {body : Library → Option α × Library} (hf : l.failures.get? op = none)
    (hb : ∀ m : Library, m.Nearly (body m).2) : l.Nearly (Library.run op a body l).2 := by
  have hforget : l.Nearly { l.called (some op) a with error := none } := { Alike.refl l with error := rfl }
  unfold Library.run
  dsimp only
  split
  · rename_i e he
    rw [show l.failures.get? op = some e from he] at hf
    cases hf
  · exact hforget.trans (hb _)

lemma Nearly.withBound {body : Bound → Library → Option α × Library}
    (hb : ∀ (b : Bound) (m : Library), m.bound? stmt name = some b → m.Nearly (body b m).2) (l : Library) :
    l.Nearly (Library.withBound stmt name pos body l).2 := by
  have hfail : ∀ e, l.Nearly { l with error := some e } := fun _ => { Alike.refl l with error := rfl }
  unfold Library.withBound
  split
  · exact hfail _
  · rename_i b hbound
    split
    · exact hb b l hbound
    · exact hfail _

lemma nearly_dataSize (hf : l.failures.get? .dataSize = none) : l.Nearly (dataSize stmt name pos l).2 :=
  Nearly.run_body hf (Nearly.withBound fun _ m _ => .refl m)

lemma nearly_setDataSize (hf : l.failures.get? .dataSize = none) (size : Nat) :
    l.Nearly (setDataSize stmt name pos size l).2 := by
  refine Nearly.run_body hf (Nearly.withBound fun b m hb => ?_)
  split
  · refine { Nearly.refl m with stmts := fun a => ?_ }
    obtain ⟨st, hst, hbound⟩ := Option.bind_eq_some_iff.mp hb
    dsimp only
    rw [Assoc.get?_modify]
    split
    · rename_i he
      rw [← he, hst]
      have hframes := frames_put hbound (b.frame_setSize pos size)
      exact congrArg some (NativeStatement.blind_eq_blind.mpr ⟨rfl, hframes, rfl, rfl, rfl⟩)
    · rfl
  · exact { Nearly.refl m with }

/-! ### The last error -/

lemma error_dropResultsets (stmt : Address) (l : Library) : (l.dropResultsets stmt).error = l.error := by
  unfold dropResultsets
  split <;> rfl

lemma error_openResultsets (stmt : Address) (rows : List (List (List Value))) (l : Library) :
    (openResultsets stmt rows l).2.error = l.error := by
  induction rows generalizing l with
  | nil => rfl
  | cons first rest ih => exact ih _

/-- No error is left by an execution that goes through. -/
lemma error_execute {iters : Nat} {memory : Memory} {x : List HookResult × Memory}
    (h : execute stmt iters memory l = (some x, l')) : l'.error = none := by
  obtain ⟨-, hbody⟩ := run_some h
  obtain ⟨_, sql, _, -, -, hb⟩ := withPrepared_some hbody
  obtain ⟨-, rfl⟩ := Prod.mk.inj hb
  exact (error_openResultsets _ _ _).trans (error_dropResultsets _ _)

end Library

namespace World
variable {w w' w'' : World}

/-- Two worlds that differ in data and in the last error of the native library only. -/
def Nearly (w w' : World) : Prop :=
  Alike { w with library := { w.library with error := none } } { w' with library := { w'.library with error := none } }

namespace Nearly

lemma refl (w : World) : Nearly w w := Alike.refl _

lemma symm (h : w.Nearly w') : w'.Nearly w := Alike.symm h

lemma trans (h : w.Nearly w') (h' : w'.Nearly w'') : w.Nearly w'' := Alike.trans h h'

lemma library (h : w.Nearly w') : w.library.Nearly w'.library := Alike.library h

instance : Std.Refl Nearly := ⟨refl⟩

instance : IsTrans World Nearly := ⟨fun _ _ _ => trans⟩

lemma willing (h : w.Nearly w') (hw : w.Willing) : w'.Willing := by
  have hf : w'.library.failures = w.library.failures := h.library.failures
  unfold Willing
  rw [hf]
  exact hw

/-- What differs nearly in data only does so when the last errors are the same. -/
lemma alike (h : w.Nearly w') (error : w'.library.error = w.library.error) : w.Alike w' :=
  { h with library := h.library.alike error }

/-- A variable that there is gets a value of its sort. -/
lemma setVar {i : Nat} {old new : HostVar} (hi : w.vars.get? i = some old) (hs : new.sort = old.sort) :
    w.Nearly (w.setVar i new) := by
  refine { Nearly.refl w with sorts := fun x => ?_ }
  rw [get?_setVar hi]
  split
  · rename_i he
    rw [← he, hi]
    exact congrArg some hs
  · rfl

lemma require {α : Type} {dress : ClientError → ClientError} {f : Library → Option α × Library}
    (hf : w.library.Nearly (f w.library).2) : Does Nearly (Act.require dress f) w :=
  Does.require { Nearly.refl w with library := hf } fun _ =>
    { Nearly.refl w with library := { Library.Nearly.refl _ with error := rfl } }

end Nearly

lemma Alike.nearly (h : w.Alike w') : w.Nearly w' := { h with library := h.library.nearly }

/-- An error is left only where there was one. -/
def Calms (w w' : World) : Prop := w.library.error = none → w'.library.error = none

namespace Calms

instance : Std.Refl Calms := ⟨fun _ => id⟩

instance : IsTrans World Calms := ⟨fun _ _ _ h h' he => h' (h he)⟩

lemma of_eq (h : w'.library = w.library) : Calms w w' := fun he => by rw [h, he]

/-- A primitive that has to succeed leaves no error: if it does not succeed, its error is taken. -/
lemma ask {stmt : Address} {name : String} {pos : Nat} (dress : ClientError → ClientError) :
    Does Calms (Act.require dress (Library.dataSize stmt name pos)) w := by
  intro _
  rw [run_require]
  rcases hd : Library.dataSize stmt name pos w.library with ⟨_ | n, l⟩
  · rfl
  · obtain ⟨-, hb⟩ := Library.run_some hd
    obtain ⟨b, -, -, hbody⟩ := Library.withBound_some hb
    obtain ⟨-, rfl⟩ := Prod.mk.inj hbody
    rfl

end Calms
end World

/-! ### Exchanges -/

namespace BindObject
variable {stmt : Address} {arraySize : Nat}

lemma nearly_loading (stmt : Address) (o : BindObject) : Loading Nearly Willing stmt o where
  lasts _ _ h hw := h.willing hw
  write w _ _ := { Nearly.refl w with }
  report _ _ size hw := Nearly.require (Library.nearly_setDataSize hw size)
  note w _ := { Nearly.refl w with }

lemma nearly_unloading (stmt : Address) (arraySize : Nat) (o : BindObject) :
    Unloading Nearly Willing stmt arraySize o where
  lasts _ _ h hw := h.willing hw
  ask _ _ _ hw := (Nearly.require (Library.nearly_dataSize hw)).seq fun _ _ _ => Does.pure _
  single _ _ _ _ _ hv := Nearly.setVar hv rfl
  element _ _ _ _ _ _ hv _ := Nearly.setVar hv rfl
  note w _ := { Nearly.refl w with }

lemma calms_unloading (stmt : Address) (arraySize : Nat) (o : BindObject) :
    Unloading Calms (fun _ => True) stmt arraySize o where
  lasts _ _ _ _ := trivial
  ask _ _ _ _ := (Calms.ask _).seq fun _ _ _ => Does.pure _
  single _ _ _ _ _ _ := Calms.of_eq rfl
  element _ _ _ _ _ _ _ _ := Calms.of_eq rfl
  note _ _ := Calms.of_eq rfl

end BindObject

lemma BindsHolder.nearly_push {w : World} (h : BindsHolder) (stmt : Address) (arraySize : Nat) (hw : w.Willing) :
    Does Nearly (h.push stmt arraySize) w :=
  BindObject.does_exchangeAll (fun _ _ hr hw => hr.willing hw)
    (fun o _ _ hw => (BindObject.nearly_loading stmt o).push hw arraySize) hw

lemma BindsHolder.nearly_pull {w : World} (h : BindsHolder) (stmt : Address) (arraySize : Nat) (hw : w.Willing) :
    Does Nearly (h.pull stmt arraySize) w :=
  BindObject.does_exchangeAll (fun _ _ hr hw => hr.willing hw)
    (fun o _ _ hw => (BindObject.nearly_unloading stmt arraySize o).pull hw) hw

lemma BindsHolder.calms_pull {w : World} (h : BindsHolder) (stmt : Address) (arraySize : Nat) :
    Does Calms (h.pull stmt arraySize) w :=
  BindObject.does_exchangeAll (fun _ _ _ _ => trivial)
    (fun o _ _ hw => (BindObject.calms_unloading stmt arraySize o).pull hw) trivial

namespace Statement
variable {s : Statement} {w w' v v' u u' : World} {stmt : Address} {d : StatementData}

/-! ### Executions -/

/-- What is checked before a statement is loaded. -/
def vet (s : Statement) : Act (Address × StatementData) := do
  let stmt ← s.handle.live
  let _ ← s.releaseResultsets
  let d ← s.data
  requireStatus d .prepared "execute"
  pure (stmt, d)

lemma load_eq_vet (s : Statement) : s.load = (do
    let p ← s.vet
    Act.dressed (ClientError.withSql p.2.sql) (p.2.binds.push p.1 p.2.arraySize)
    pure p) := by
  simp only [load, vet, bind_assoc, pure_bind]

lemma blind_vet (s : Statement) : Act.Blind s.vet :=
  (Blind.live _).bind fun _ => s.blind_releaseResultsets.bind fun _ => (Blind.data s).bind fun d =>
    (Blind.requireStatus d _ _).bind fun _ => .pure _

lemma steadies_vet {p : Primitive} (s : Statement) (w : World) : Does (Steadies p) s.vet w :=
  Does.live fun _ _ _ _ => (s.steadies_releaseResultsets w).seq fun _ _ _ => Does.data fun _ _ _ _ _ _ =>
    Does.requireStatus fun _ => Does.pure _

/-- The resultsets go and the statement is found ready, and then its variables travel into their buffers. -/
lemma ok_of_load (h : s.load.run w = (.ok (stmt, d), v)) (hw : w.Willing) :
    ∃ u, s.vet.run w = (.ok (stmt, d), u) ∧ u.Nearly v := by
  rw [load_eq_vet] at h
  obtain ⟨⟨stmt', d'⟩, u, hvet, hpush⟩ := ok_of_bind h
  have hwilling : u.Willing := (s.steadies_vet w).rel hvet hw
  have hnearly : Does Nearly (do
      Act.dressed (ClientError.withSql d'.sql) (d'.binds.push stmt' d'.arraySize)
      pure (stmt', d') : Act (Address × StatementData)) u :=
    (d'.binds.nearly_push stmt' d'.arraySize hwilling).dressed.seq fun _ _ _ => Does.pure _
  obtain ⟨_, _, -, hend⟩ := ok_of_bind hpush
  obtain ⟨hp, -⟩ := Prod.mk.inj hend
  obtain ⟨rfl, rfl⟩ := Prod.mk.inj (Except.ok.inj hp)
  exact ⟨u, hvet, hnearly.rel hpush⟩

/-- Two statements that are loaded in worlds that differ in data only are the same, and leave worlds that nearly differ
in data only. -/
lemma load_alike (h : w.Alike w') (hw : w.Willing) (hr : s.load.run w = (.ok (stmt, d), v))
    {p' : Address × StatementData} (hr' : s.load.run w' = (.ok p', v')) : p' = (stmt, d) ∧ v.Nearly v' := by
  obtain ⟨u, hvet, hnear⟩ := ok_of_load hr hw
  obtain ⟨u', hvet', hnear'⟩ := ok_of_load hr' (h.nearly.willing hw)
  obtain ⟨h1, h2⟩ := s.blind_vet h
  rw [hvet, hvet'] at h1 h2
  exact ⟨Except.ok.inj h1, hnear.symm.trans (h2.nearly.trans hnear')⟩

/-- To unload a statement changes data only. -/
lemma nearly_unload (s : Statement) (stmt : Address) (d : StatementData) (hw : w.Willing) :
    (s.putData { d with status := .executed } w).Nearly ((s.unload stmt d).run w).2 := by
  have hput : (s.putData { d with status := .executed } w).Willing := by
    unfold Willing
    rw [(s.putData_aside { d with status := .executed } w).1]
    exact hw
  have hpull : Does Nearly (do
      Act.dressed (ClientError.withSql d.sql) (d.binds.pull stmt d.arraySize)
      Act.note (.executed stmt d.arraySize)) (s.putData { d with status := .executed } w) :=
    (d.binds.nearly_pull stmt d.arraySize hput).dressed.seq fun _ v _ => { Nearly.refl v with }
  exact hpull

lemma calms_unload (s : Statement) (stmt : Address) (d : StatementData) (w : World) :
    Does Calms (s.unload stmt d) w := by
  have hput : Does Calms (Act.update (s.putData { d with status := .executed })) w :=
    Calms.of_eq (s.putData_aside { d with status := .executed } w).1
  exact hput.seq fun _ _ _ => (d.binds.calms_pull stmt d.arraySize).dressed.seq fun _ _ _ => Calms.of_eq rfl

lemma alike_unload (h : u.Alike u') (hw : u.Willing) (herror : u.library.error = none) (s : Statement) (stmt : Address)
    (d : StatementData) : ((s.unload stmt d).run u).2.Alike ((s.unload stmt d).run u').2 := by
  have hput := s.alike_putData { d with status := .executed } h
  have hnear := s.nearly_unload stmt d hw
  have hnear' := s.nearly_unload stmt d (h.nearly.willing hw)
  have hcalm : ((s.unload stmt d).run u).2.library.error = none := s.calms_unload stmt d u herror
  have hcalm' : ((s.unload stmt d).run u').2.library.error = none :=
    s.calms_unload stmt d u' (h.library.error.trans herror)
  exact (hnear.symm.trans (hput.nearly.trans hnear')).alike (hcalm'.trans hcalm.symm)

/-- An execution after the statement has been loaded. -/
lemma world_executePrepared (hr : s.load.run w = (.ok (stmt, d), v)) : (s.executePrepared.run w).2 =
    match runNative stmt d.arraySize v with
    | (some (), u) => ((s.unload stmt d).run u).2
    | (none, u) => { u with library := u.library.lastError.2 } := by
  unfold executePrepared
  rw [run_bind, hr]
  dsimp only
  rw [run_bind, run_modifyGet]
  rcases runNative stmt d.arraySize v with ⟨_ | _, u⟩ <;> rfl

lemma alike_of_load (h : v.Nearly v') (hv : v.Willing) (hr : s.load.run w = (.ok (stmt, d), v))
    (hr' : s.load.run w' = (.ok (stmt, d), v')) : (s.executePrepared.run w).2.Alike (s.executePrepared.run w').2 := by
  have hlib : ∀ {l l' : Library}, l.Alike l' → World.Alike { v with library := l } { v' with library := l' } :=
    fun hl => { h with library := hl }
  rw [world_executePrepared hr, world_executePrepared hr', runNative, runNative]
  obtain ⟨l, l', hl, he, he'⟩ | ⟨rs, m, l, rs', m', l', hl, he, he', hm, hm'⟩ :=
    h.library.execute stmt d.arraySize v.memory v'.memory
  · rw [he, he']
    exact hlib (Library.blind_lastError hl).2
  · rw [he, he']
    refine alike_unload ?_ ?_ (Library.error_execute he) s stmt d
    · exact { hlib hl with memory := hm'.trans (h.memory.trans hm.symm) }
    · obtain ⟨opened, hexec⟩ := Library.executed he
      exact Library.Steadies.of_eq hexec.failures hv

/-- To execute a statement leaves worlds that differ in data only, as long as a statement that is found ready can be
loaded. -/
theorem alike_executePrepared (h : w.Alike w') (hw : w.Willing)
    (hgo : ∀ p u, s.vet.run w = (.ok p, u) → ∃ v, s.load.run w = (.ok p, v))
    (hgo' : ∀ p u, s.vet.run w' = (.ok p, u) → ∃ v, s.load.run w' = (.ok p, v)) :
    (s.executePrepared.run w).2.Alike (s.executePrepared.run w').2 := by
  obtain ⟨h1, h2⟩ := s.blind_vet h
  rcases hr : s.vet.run w with ⟨e | ⟨stmt, d⟩, u⟩ <;> rcases hr' : s.vet.run w' with ⟨e' | p', u'⟩ <;>
    rw [hr, hr'] at h1 h2
  · have hstop : ∀ {e w u}, s.vet.run w = (.error e, u) → (s.executePrepared.run w).2 = u := by
      intro e w u hr
      unfold executePrepared
      rw [load_eq_vet, run_bind, run_bind, hr]
    rw [hstop hr, hstop hr']
    exact h2
  · cases h1
  · cases h1
  · obtain rfl := Except.ok.inj h1
    obtain ⟨v, hload⟩ := hgo _ _ hr
    obtain ⟨v', hload'⟩ := hgo' _ _ hr'
    have hnear := (load_alike h hw hload hload').2
    exact alike_of_load hnear ((s.steadies_load w).rel hload hw) hload hload'

/-- A statement that is found ready has been prepared. -/
lemma ok_of_vet (hw : w.Forest) (h : s.vet.run w = (.ok (stmt, d), u)) :
    s.data? w = some d ∧ Status.prepared.rank ≤ d.status.rank := by
  obtain ⟨_, _, hlive, hrest⟩ := ok_of_bind h
  obtain ⟨rfl, id, n, hid, hl, rfl⟩ := ok_of_live hlive
  obtain ⟨_, _, hrelease, hread⟩ := ok_of_bind hrest
  obtain ⟨d', _, hdata, hcheck⟩ := ok_of_bind hread
  obtain ⟨rfl, hd⟩ := ok_of_data hdata
  obtain ⟨_, _, hstatus, hend⟩ := ok_of_bind hcheck
  obtain ⟨rfl, hrank⟩ := ok_of_requireStatus hstatus
  obtain ⟨hp, rfl⟩ := Prod.mk.inj hend
  obtain ⟨-, rfl⟩ := Prod.mk.inj (Except.ok.inj hp)
  obtain ⟨count, y, ids, hrelease', hlu, -⟩ := cleared_releaseResultsets hw hid hl
  obtain ⟨-, rfl⟩ := Prod.mk.inj (hrelease'.symm.trans hrelease)
  have hx : (n.without ids).Keeps d' := keeps_of_data? hid hlu hd
  exact ⟨data?_eq_some.mpr ⟨id, n, hid, hl, hx⟩, hrank⟩

end Statement
end DbClient
