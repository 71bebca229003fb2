import DbClient.Proofs.Moves.Statements

/-! Outcomes of operations, result and world together. The rules follow the first step of an operation, one for each
kind of step with which operations begin. -/
namespace DbClient
namespace Act
variable {α β : Type} {w w' : World} {P : Except ClientError β → World → Prop}

/-- An operation ends with an outcome that satisfies `P`. -/
def Ends (a : Act β) (w : World) (P : Except ClientError β → World → Prop) : Prop := P (a.run w).1 (a.run w).2

namespace Ends

lemma elim {a : Act β} {r : Except ClientError β} (h : Ends a w P) (hr : a.run w = (r, w')) : P r w' := by
  unfold Ends at h
  rwa [hr] at h

/-- The rule for steps in a row. -/
theorem bind {a : Act α} {f : α → Act β} (hok : ∀ x v, a.run w = (.ok x, v) → Ends (f x) v P)
    (herror : ∀ e v, a.run w = (.error e, v) → P (.error e) v) : Ends (a >>= f) w P := by
  unfold Ends
  rw [run_bind]
  rcases hr : a.run w with ⟨e | x, v⟩
  · exact herror e v hr
  · exact hok x v hr

/-- The rule for a result that is put into other words. -/
lemma giving {a : Act α} {f : α → β} (ha : Ends a w fun r w' => P (r.map f) w') :
    Ends (a >>= fun x => pure (f x)) w P := by
  unfold Ends at ha ⊢
  rw [run_bind]
  rcases hr : a.run w with ⟨e | x, v⟩ <;>
  · rw [hr] at ha
    exact ha

lemma get {f : World → Act β} (h : Ends (f w) w P) : Ends (MonadState.get >>= f) w P := h

lemma ofExcept {r : Except ClientError α} {f : α → Act β} (hok : ∀ x, r = .ok x → Ends (f x) w P)
    (herror : ∀ e, r = .error e → P (.error e) w) : Ends (Act.ofExcept r >>= f) w P := by
  cases r with
  | ok x => exact hok x rfl
  | error e => exact herror e rfl

lemma checked {r : Option α} {f : α → Act β} (hfit : ∀ x, r = some x → Ends (f x) w P)
    (hover : r = none → P (.error .overflow) w) : Ends (Act.checked r >>= f) w P := by
  cases r with
  | some x => exact hfit x rfl
  | none => exact hover rfl

lemma live {h : Wrapper} {f : Address → Act β}
    (hlive : ∀ id n, h.node = some id → w.Live id n → Ends (f n.native) w P)
    (hnull : h.isNull w = true → P (.error (.nullHandle (h.kind w))) w) : Ends (h.live >>= f) w P := by
  unfold Wrapper.live
  rw [bind_assoc]
  apply get
  split
  · rename_i hn
    exact hnull hn
  · rename_i hn
    obtain ⟨id, n, hid, hl⟩ := Wrapper.isNull_eq_false.mp (Bool.eq_false_iff.mpr hn)
    rw [pure_bind, Wrapper.native_of_live hid hl]
    exact hlive id n hid hl

lemma data {s : Statement} {f : StatementData → Act β} (hdata : ∀ d, s.data? w = some d → Ends (f d) w P)
    (hnone : s.data? w = none → P (.error (.nullHandle .statement)) w) : Ends (s.data >>= f) w P := by
  unfold Statement.data
  rw [bind_assoc]
  apply get
  split
  · rename_i d hd
    exact hdata d hd
  · rename_i hd
    exact hnone hd

lemma requireStatus {d : StatementData} {needed : Status} {operation : String} {f : Unit → Act β}
    (hok : needed.rank ≤ d.status.rank → Ends (f ()) w P)
    (hbelow : d.status.rank < needed.rank → P (.error (.invalidState operation (.statusBelow d.status needed))) w) :
    Ends (Statement.requireStatus d needed operation >>= f) w P := by
  unfold Statement.requireStatus
  split
  · rename_i h
    exact hbelow h
  · rename_i h
    exact hok (Nat.le_of_not_lt h)

lemma require {dress : ClientError → ClientError} {f : Library → Option α × Library} {g : α → Act β}
    (hok : ∀ x l, f w.library = (some x, l) → Ends (g x) { w with library := l } P)
    (hfail : ∀ l, f w.library = (none, l) →
      P (.error (dress (.ofNative l.lastError.1))) { w with library := l.lastError.2 }) :
    Ends (Act.require dress f >>= g) w P := by
  unfold Ends
  rw [run_bind, run_require]
  rcases hf : f w.library with ⟨_ | x, l⟩
  · exact hfail l hf
  · exact hok x l hf

lemma make {plan : BindPlan} {f : BindObject → Act β}
    (hfit : plan.Fits → Ends (f (BindObject.place plan w).1) (BindObject.place plan w).2 P)
    (hover : ¬plan.Fits → P (.error .overflow) w) : Ends (BindObject.make plan >>= f) w P := by
  unfold BindObject.make
  split
  · rename_i h
    exact hfit h
  · rename_i h
    exact hover h

/-! ### First steps with a known outcome -/

lemma after {a : Act α} {f : α → Act β} {x : α} {v : World} (hr : a.run w = (.ok x, v)) (hf : Ends (f x) v P) :
    Ends (a >>= f) w P := by
  unfold Ends
  rw [run_bind, hr]
  exact hf

lemma follow {a : Act α} {f : α → Act β} {x : α} {Q : World → Prop} (ha : Ends a w fun r w' => r = .ok x ∧ Q w')
    (hf : ∀ v, Q v → Ends (f x) v P) : Ends (a >>= f) w P := after (Prod.ext ha.1 rfl) (hf _ ha.2)

lemma afterUpdate {f : World → World} {g : Unit → Act β} (hg : Ends (g ()) (f w) P) : Ends (update f >>= g) w P := hg

lemma liveOf {h : Wrapper} {id : Nat} {n : Node} {f : Address → Act β} (hid : h.node = some id) (hl : w.Live id n)
    (hf : Ends (f n.native) w P) : Ends (h.live >>= f) w P := by
  unfold Wrapper.live
  rw [bind_assoc]
  apply get
  rw [Wrapper.isNull_eq_false.mpr ⟨id, n, hid, hl⟩, if_neg Bool.false_ne_true, pure_bind,
    Wrapper.native_of_live hid hl]
  exact hf

lemma dataOf {s : Statement} {d : StatementData} {f : StatementData → Act β} (hd : s.data? w = some d)
    (hf : Ends (f d) w P) : Ends (s.data >>= f) w P := by
  unfold Statement.data
  rw [bind_assoc]
  apply get
  rw [hd]
  exact hf

/-- What follows an operation that fails does not matter. -/
lemma failing {a : Act α} {f : α → Act β} {e : ClientError} {Q : World → Prop}
    (h : Ends a w fun r w' => r = .error e ∧ Q w') : Ends (a >>= f) w fun r w' => r = .error e ∧ Q w' := by
  unfold Ends at h ⊢
  rw [run_bind]
  rcases hr : a.run w with ⟨e' | x, v⟩ <;> rw [hr] at h
  · exact ⟨congrArg Except.error (Except.error.inj h.1), h.2⟩
  · cases h.1

/-- The same for any error. -/
lemma unsuccessful {a : Act α} {f : α → Act β} {Q : World → Prop}
    (h : Ends a w fun r w' => (∃ e, r = .error e) ∧ Q w') :
    Ends (a >>= f) w fun r w' => (∃ e, r = .error e) ∧ Q w' := by
  unfold Ends at h
  obtain ⟨⟨e, he⟩, hq⟩ := h
  have hfail : Ends a w fun r w' => r = .error e ∧ Q w' := ⟨he, hq⟩
  exact ⟨⟨e, (failing hfail).1⟩, (failing hfail).2⟩

end Ends
end Act
end DbClient
