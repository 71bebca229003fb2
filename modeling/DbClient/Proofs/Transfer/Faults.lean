import DbClient.Proofs.Outcomes
import DbClient.Proofs.Transfer.Guarded

/-! What can go wrong in an exchange of objects that stand on both sides, when no question about actual lengths is made
to fail: on the way into the buffers nothing, and on the way out of them only that an element stands for no value. -/
namespace DbClient
open Act World

/-- Bytes that stand for no value of a type: a text that is not UTF-8, or a moment outside the calendar. -/
def Host.Malformed : ValueType → List UInt8 → Prop
  | .string, bs => Text.Utf8.decode? bs = none
  | .dateTime, bs => ¬(-8334601228800 ≤ (Fixed.ofBytes .int64 bs).val / 1000000 ∧
      (Fixed.ofBytes .int64 bs).val / 1000000 ≤ 8210266876799)
  | _, _ => False

lemma Host.malformed_of_none {ty : ValueType} {bs : List UInt8} (h : ofBytes? ty bs = none) : Malformed ty bs := by
  cases ty with
  | string => exact h
  | dateTime =>
    intro hrange
    have hnanos : ((Fixed.ofBytes .int64 bs).val % 1000000 * 1000).toNat < 1000000000 := by omega
    simp [ofBytes?, DateTime.ofMicros?, DateTime.ofTimestamp?, hrange, hnanos] at h
  | _ => cases h

namespace Library
variable {l : Library} {stmt : Address} {name : String} {pos size : Nat}

lemma accepts_iff : l.accepts stmt name pos size = true ↔
    ∃ b, l.bound? stmt name = some b ∧ b.HasPosition pos ∧ size ≤ b.elemSize := by
  simp [accepts, Option.any_eq_true]

/-- What the library accepts it takes, unless it is made to fail. -/
lemma setDataSize_goes (h : l.accepts stmt name pos size = true) (hf : l.failures.get? .dataSize = none) :
    ∃ l', setDataSize stmt name pos size l = (some (), l') := by
  obtain ⟨b, hb, hp, hsize⟩ := accepts_iff.mp h
  have hf' : (l.called (some .dataSize) stmt).failures.get? .dataSize = none := hf
  have hb' : bound? { l.called (some .dataSize) stmt with error := none } stmt name = some b := hb
  simp only [setDataSize, run, hf', withBound, hb', hp, hsize, if_true]
  exact ⟨_, rfl⟩

lemma dataSize_goes (h : l.accepts stmt name pos size = true) (hf : l.failures.get? .dataSize = none) :
    ∃ n l', dataSize stmt name pos l = (some n, l') := by
  obtain ⟨b, hb, hp, -⟩ := accepts_iff.mp h
  have hf' : (l.called (some .dataSize) stmt).failures.get? .dataSize = none := hf
  have hb' : bound? { l.called (some .dataSize) stmt with error := none } stmt name = some b := hb
  simp only [dataSize, run, hf', withBound, hb', hp, if_true]
  exact ⟨_, _, rfl⟩

end Library

/-- No question about an actual length is made to fail. -/
def World.Willing (w : World) : Prop := w.library.failures.get? .dataSize = none

instance (w : World) : Decidable w.Willing := inferInstanceAs (Decidable (_ = none))

namespace BindObject
variable {w v : World} {stmt : Address} {o : BindObject} {os : List BindObject} {ty : ValueType}
  {i pos size arraySize : Nat}

lemma reportSize_goes (hs : o.Stands stmt w) (ha : w.Willing) (hpos : 1 ≤ pos) (hcount : pos ≤ o.elemCount)
    (hsize : size ≤ o.elemSize) : ∃ v, (o.reportSize stmt pos size).run w = (.ok (), v) := by
  obtain ⟨l, hl⟩ := Library.setDataSize_goes (hs.accepts hpos hcount hsize) ha
  exact ⟨_, by rw [reportSize, run_require, hl]⟩

lemma askSize_goes (hs : o.Stands stmt w) (ha : w.Willing) (hpos : 1 ≤ pos) (hcount : pos ≤ o.elemCount)
    (limit : Nat) : ∃ n v, (o.askSize stmt pos limit).run w = (.ok n, v) := by
  obtain ⟨n, l, hl⟩ := Library.dataSize_goes (hs.accepts hpos hcount (Nat.zero_le _)) ha
  exact ⟨min n limit, { w with library := l }, by
    rw [askSize, run_bind, run_require, hl]
    rfl⟩

/-! ### Into the buffers -/

lemma pushFrom_goes {xs : List (Host ty)} (hs : o.Stands stmt w) (ha : w.Willing) (hi : i + xs.length ≤ o.elemCount) :
    Ends (o.pushFrom stmt ty i xs) w fun r _ => r = .ok () := by
  induction xs generalizing w i with
  | nil => rfl
  | cons x rest ih =>
    rw [List.length_cons] at hi
    rw [pushFrom_cons]
    refine Ends.get (Ends.afterUpdate ?_)
    have hsu : o.Stands stmt (w.writeBuffer o.buffer (i * o.elemSize) (Host.writeElement ty x (o.cell i w)).2) :=
      hs.keep (Loads.writes (List.mem_singleton_self o) _ _) rfl
    split
    · rename_i hv
      have hsize := size_writeElement_le (o := o) hv x (hs.length_cell (i := i) (by omega))
      obtain ⟨v, hr⟩ := reportSize_goes hsu ha (by omega : 1 ≤ i + 1) (by omega) hsize
      refine Ends.after hr (ih ?_ ?_ (by omega))
      · exact hsu.keep ((loads_loading (List.mem_singleton_self o)).report _ _ _ trivial) hr
      · exact ((steadies_loading stmt o).report _ _ _ trivial).rel hr ha
    · exact ih hsu ha (by omega)

/-- Each object can be loaded. -/
theorem push_goes (hs : o.Stands stmt w) (hshape : o.Shaped) (hsuits : o.Suits w.vars) (ha : w.Willing)
    (arraySize : Nat) : Ends (o.push stmt arraySize) w fun r _ => r = .ok () := by
  unfold BindObject.push
  apply Ends.get
  cases hform : o.form with
  | cell =>
    obtain ⟨x, hx⟩ := hsuits.single (by simp [hform])
    rw [hx]
    dsimp only
    split <;> rfl
  | text size =>
    obtain ⟨x, hx⟩ := hsuits.single (by simp [hform])
    have hv : o.ty.isVariable = true := by simpa [BindPlan.Shaped, hform] using hshape
    have helem : o.elemSize = size + 1 := by simp [BindPlan.elemSize, hform]
    have hcount : o.elemCount = 1 := by simp [BindPlan.elemCount, hform]
    have hle := Host.length_bytesWithin_le hv size x
    rw [hx]
    dsimp only
    split
    · refine Ends.afterUpdate ?_
      have hsu : o.Stands stmt (w.writeBuffer o.buffer 0 ((Host.fill o.ty x size).2 ++ [0])) :=
        hs.keep (Loads.writes (List.mem_singleton_self o) _ _) rfl
      have hcell : (Host.fill o.ty x size).1 ≤ o.elemSize := helem ▸ Nat.le_succ_of_le hle
      obtain ⟨v, hr⟩ := reportSize_goes hsu ha (Nat.le_refl 1) hcount.ge hcell
      exact Ends.after hr rfl
    · rfl
  | vector kind elemSize elemCount =>
    obtain ⟨xs, hxs⟩ := hsuits.vector hform
    rw [hxs]
    dsimp only
    split
    · have hcover := o.count_le_elemCount arraySize xs.length
      refine Ends.bind (fun _ _ _ => rfl) fun e v hr => ?_
      have htaken : 0 + (xs.take (o.count arraySize xs.length)).length ≤ o.elemCount := by
        rw [List.length_take]
        omega
      have hgo := (pushFrom_goes hs ha htaken).elim hr
      cases hgo
    · rfl

/-- All objects that can be exchanged can be loaded. -/
theorem pushAll_goes (h : Fitted os stmt w) (ha : w.Willing) (arraySize : Nat) :
    Ends (exchangeAll (fun o => o.push stmt arraySize) os) w fun r _ => r = .ok () := by
  induction os generalizing w with
  | nil => rfl
  | cons o rest ih =>
    obtain ⟨hs, hshape, hsuits⟩ := h o List.mem_cons_self
    have hgo := push_goes hs hshape hsuits ha arraySize
    refine Ends.bind (fun _ v hr => ?_) fun e v hr => ?_
    · have hpush := ok_of_dressed hr
      refine ih (fun p hp => Fitted.of_loads h (((loads_loading (List.mem_singleton_self o)).push trivial arraySize).rel
        hpush) p (List.mem_cons_of_mem o hp)) ?_
      exact ((steadies_loading stmt o).push trivial arraySize).rel hpush ha
    · rw [dressed, run_tryCatch] at hr
      rcases hpush : (o.push stmt arraySize).run w with ⟨e' | x, u⟩
      · cases hgo.elim hpush
      · rw [hpush] at hr
        cases hr

/-! ### Out of the buffers -/

/-- An element of an object stands for no value: its cell does not, up to the actual length where there is one. -/
def Spoilt (o : BindObject) (stmt : Address) (w : World) (i : Nat) : Prop :=
  if o.ty.isVariable then ∃ b, w.library.bound? stmt o.name = some b ∧
    Host.Malformed o.ty ((o.cell i w).take (min (b.sizeAt (i + 1)) (o.elemSize - 1)))
  else Host.Malformed o.ty (o.cell i w)

/-- Why an object cannot be unloaded. -/
structure Stuck (o : BindObject) (stmt : Address) (w : World) (e : ClientError) : Prop where
  error : e = .conversion o.ty
  out : o.direction.isOut
  element : ∃ i, i < o.elemCount ∧ o.Spoilt stmt w i

/-- What an object holds is settled by the memory and by what the library knows. -/
lemma Stuck.congr {e : ClientError} (h : o.Stuck stmt v e) (hm : v.memory = w.memory)
    (hb : v.library.bound? stmt o.name = w.library.bound? stmt o.name) : o.Stuck stmt w e := by
  obtain ⟨he, hout, i, hi, hsp⟩ := h
  refine ⟨he, hout, i, hi, ?_⟩
  unfold Spoilt at hsp ⊢
  rw [cell_of_memory hm, hb] at hsp
  exact hsp

/-- The bytes that are asked for are those that count, and if they do not decode the element is spoilt. -/
lemma spoilt_of_askLength {n : Nat} (h : (o.askLength stmt o.ty i).run w = (.ok n, v))
    (hd : Host.ofBytes? o.ty ((o.cell i v).take n) = none) : o.Spoilt stmt w i := by
  obtain ⟨l, rfl, hn⟩ := ok_of_askLength h
  have hcell : o.cell i { w with library := l } = o.cell i w := cell_of_memory rfl i
  rw [hcell] at hd
  unfold Spoilt
  split
  · rename_i hv
    rw [if_pos hv] at hn
    obtain ⟨size, hl, rfl⟩ := hn
    obtain ⟨b, hb, -, rfl⟩ := Library.dataSize_some hl
    exact ⟨b, hb, Host.malformed_of_none hd⟩
  · rename_i hv
    rw [if_neg hv] at hn
    obtain ⟨-, rfl⟩ := hn
    have hwhole : (o.cell i w).take o.elemSize = o.cell i w := List.take_of_length_le (by
      rw [cell, slice]
      exact List.length_take_le _ _)
    rw [hwhole] at hd
    exact Host.malformed_of_none hd

lemma askLength_goes (ty : ValueType) (hs : o.Stands stmt w) (ha : w.Willing) (hi : i < o.elemCount) :
    ∃ n v, (o.askLength stmt ty i).run w = (.ok n, v) := by
  unfold askLength
  split
  · exact askSize_goes hs ha (by omega) (by omega) _
  · exact ⟨_, _, rfl⟩

lemma pullFrom_fails {xs : List (Host o.ty)} {count : Nat} (hs : o.Stands stmt w) (ha : w.Willing)
    (hout : o.direction.isOut) (hi : i + count ≤ o.elemCount) :
    Ends (o.pullFrom stmt o.ty xs i count) w fun r _ => ∀ e, r = .error e → o.Stuck stmt w e := by
  induction count generalizing w xs i with
  | zero => exact fun e he => by cases he
  | succ count ih =>
    rw [pullFrom_succ]
    obtain ⟨n, u, hask⟩ := askLength_goes o.ty hs ha (show i < o.elemCount by omega)
    refine Ends.after hask (Ends.get ?_)
    cases hd : Host.ofBytes? o.ty ((o.cell i u).take n) with
    | none =>
      intro e he
      exact ⟨(Except.error.inj he).symm, hout, i, by omega, spoilt_of_askLength hask hd⟩
    | some x =>
      obtain ⟨⟨l, hres, rfl⟩, -⟩ := brings_of_askLength hask
      have hunloads : Unloads stmt 0 [] w { w with library := l } := Unloads.of_eq hres rfl rfl
      have hsteady : Steadies .dataSize w { w with library := l } := by
        unfold askLength at hask
        split at hask
        · exact ((steadies_unloading stmt 0 o).ask w _ _ trivial).rel hask
        · obtain ⟨-, he⟩ := Prod.mk.inj hask
          exact Steadies.of_eq (congrArg World.library he.symm)
      have hsu := hs.of_unloads hunloads
      refine Ends.afterUpdate fun e he => ?_
      have hnext : o.Stands stmt (World.setVar o.var (.vector o.ty (xs.set i x)) { w with library := l }) :=
        ⟨hsu.buffer, hsu.entry⟩
      have hstuck := ih hnext (hsteady ha) (by omega) e he
      exact hstuck.congr rfl (hres.entries stmt o.name (by simp))

/-- An object that can be exchanged is unloaded unless an element is spoilt. -/
theorem pull_fails (hs : o.Stands stmt w) (hshape : o.Shaped) (hsuits : o.Suits w.vars) (ha : w.Willing) :
    Ends (o.pull stmt arraySize) w fun r _ => ∀ e, r = .error e → o.Stuck stmt w e := by
  unfold BindObject.pull
  split
  swap
  · exact fun e he => by cases he
  rename_i hout
  apply Ends.get
  cases hform : o.form with
  | cell =>
    obtain ⟨x, hx⟩ := hsuits.single (by simp [hform])
    have hv : o.ty.isVariable = false := by simpa [BindPlan.Shaped, hform] using hshape
    rw [hx]
    apply Ends.get
    cases hd : Host.ofBytes? o.ty (o.cell 0 w) with
    | none =>
      refine fun e he => ⟨(Except.error.inj he).symm, hout, 0, by simp [BindPlan.elemCount, hform], ?_⟩
      rw [Spoilt, hv, if_neg Bool.false_ne_true]
      exact Host.malformed_of_none hd
    | some y => exact fun e he => by cases he
  | text size =>
    obtain ⟨x, hx⟩ := hsuits.single (by simp [hform])
    have hv : o.ty.isVariable = true := by simpa [BindPlan.Shaped, hform] using hshape
    have helem : o.elemSize = size + 1 := by simp [BindPlan.elemSize, hform]
    have hi : 0 < o.elemCount := by simp [BindPlan.elemCount, hform]
    -- the declared size leaves the last byte of the cell, as that of an element does
    obtain ⟨n, u, hask⟩ := askLength_goes o.ty hs ha hi
    have hasked : (o.askSize stmt 1 size).run w = (.ok n, u) := by
      rw [askLength, if_pos hv, helem, Nat.add_sub_cancel] at hask
      exact hask
    rw [hx]
    refine Ends.after hasked (Ends.get ?_)
    cases hd : Host.ofBytes? o.ty ((o.cell 0 u).take n) with
    | none => exact fun e he => ⟨(Except.error.inj he).symm, hout, 0, hi, spoilt_of_askLength hask hd⟩
    | some y => exact fun e he => by cases he
  | vector kind elemSize elemCount =>
    obtain ⟨xs, hxs⟩ := hsuits.vector hform
    have hcover := o.count_le_elemCount arraySize xs.length
    rw [hxs]
    refine Ends.bind (fun _ _ _ e he => by cases he) fun e v hr e' he' => ?_
    obtain rfl := Except.error.inj he'
    exact (pullFrom_fails hs ha hout (by omega)).elim hr e rfl

lemma error_of_dressed {dress : ClientError → ClientError} {a : Act Unit} {e : ClientError}
    (h : (dressed dress a).run w = (.error e, v)) : ∃ e', a.run w = (.error e', v) ∧ e = dress e' := by
  rw [dressed, run_tryCatch] at h
  rcases hr : a.run w with ⟨e' | x, u⟩ <;> rw [hr] at h
  · obtain ⟨he, rfl⟩ := Prod.mk.inj h
    exact ⟨e', rfl, (Except.error.inj he).symm⟩
  · cases h

/-- Objects that can be exchanged are unloaded unless an element of one of them is spoilt. -/
theorem pullAll_fails (h : Fitted os stmt w) (ha : w.Willing) (arraySize : Nat) :
    Ends (exchangeAll (fun o => o.pull stmt arraySize) os) w fun r _ =>
      ∀ e, r = .error e → ∃ o ∈ os, o.Stuck stmt w e := by
  induction os generalizing w with
  | nil => exact fun e he => by cases he
  | cons o rest ih =>
    obtain ⟨hs, hshape, hsuits⟩ := h o List.mem_cons_self
    refine Ends.bind (fun _ v hr => ?_) fun e v hr e' he' => ?_
    · have hpull := ok_of_dressed hr
      have hunloads : Unloads stmt arraySize [o] w v :=
        ((unloads_unloading (List.mem_singleton_self o)).pull trivial).rel hpull
      have hv : Fitted rest stmt v := fun p hp => h.of_unloads hunloads p (List.mem_cons_of_mem o hp)
      intro e he
      obtain ⟨p, hp, hstuck⟩ := ih hv (((steadies_unloading stmt arraySize o).pull trivial).rel hpull ha) e he
      exact ⟨p, List.mem_cons_of_mem o hp,
        hstuck.congr hunloads.memory (hunloads.library.entries stmt p.name (by simp))⟩
    · obtain rfl := Except.error.inj he'
      obtain ⟨e', hpull, rfl⟩ := error_of_dressed hr
      have hstuck := (pull_fails hs hshape hsuits ha).elim hpull e' rfl
      refine ⟨o, List.mem_cons_self, ?_, hstuck.out, hstuck.element⟩
      rw [hstuck.error]
      rfl

end BindObject

/-- What an execution has left is unloaded unless an element is spoilt. -/
theorem Statement.unload_fails {w : World} {s : Statement} {stmt : Address} {d : StatementData}
    (h : BindObject.Fitted d.binds.objects stmt w) (ha : w.Willing) :
    Ends (s.unload stmt d) w fun r _ => ∀ e, r = .error e → ∃ o ∈ d.binds.objects, o.Stuck stmt w e := by
  obtain ⟨h1, h2, -⟩ := s.putData_aside { d with status := .executed } w
  have hput := s.fitted_putData h { d with status := .executed }
  have hwilling : (s.putData { d with status := .executed } w).Willing := by
    unfold World.Willing
    rw [h1]
    exact ha
  refine Ends.afterUpdate (Ends.bind (fun _ _ _ e he => by cases he) fun e v hr e' he' => ?_)
  obtain rfl := Except.error.inj he'
  obtain ⟨e', hpull, rfl⟩ := BindObject.error_of_dressed hr
  obtain ⟨o, ho, hstuck⟩ := (BindObject.pullAll_fails hput hwilling d.arraySize).elim hpull e' rfl
  refine ⟨o, ho, BindObject.Stuck.congr ⟨?_, hstuck.out, hstuck.element⟩ h2 (by rw [h1])⟩
  rw [hstuck.error]
  rfl

end DbClient
