import DbClient.World
import Mathlib.Order.Defs.Unbundled

/-! Operations of the client as transitions of the world. A relation between worlds that is reflexive and
transitive holds across an operation as soon as it holds across its steps, whether they fail or not. -/
namespace DbClient
namespace Act
variable {α β : Type} {w w' : World}

@[simp] theorem run_get (w : World) : (get : Act World).run w = (.ok w, w) := rfl

@[simp] theorem run_update (f : World → World) (w : World) : (update f).run w = (.ok (), f w) := rfl

@[simp] theorem run_modifyGet (f : World → α × World) (w : World) :
    (modifyGet f : Act α).run w = (.ok (f w).1, (f w).2) := rfl

@[simp] theorem run_native (f : Library → α × Library) (w : World) :
    (native f).run w = (.ok (f w.library).1, { w with library := (f w.library).2 }) := rfl

theorem run_ofExcept (r : Except ClientError α) (w : World) : (ofExcept r).run w = (r, w) := by
  cases r <;> rfl

theorem run_bind (a : Act α) (f : α → Act β) (w : World) : (a >>= f).run w =
    match a.run w with
    | (.ok x, w') => (f x).run w'
    | (.error e, w') => (.error e, w') := by
  change ((ExceptT.bind a f).run : StateM World (Except ClientError β)) w = _
  simp only [ExceptT.bind, ExceptT.run, ExceptT.mk, bind, StateT.bind, ExceptT.bindCont]
  rcases a w with ⟨_ | _, _⟩ <;> rfl

theorem run_get_bind (f : World → Act β) (w : World) : (get >>= f).run w = (f w).run w := rfl

theorem run_tryCatch (a : Act α) (f : ClientError → Act α) (w : World) : (tryCatch a f).run w =
    match a.run w with
    | (.ok x, w') => (.ok x, w')
    | (.error e, w') => (f e).run w' := by
  change ((ExceptT.tryCatch a f).run : StateM World (Except ClientError α)) w = _
  simp only [ExceptT.tryCatch, ExceptT.run, ExceptT.mk, bind, StateT.bind]
  rcases a w with ⟨_ | _, _⟩ <;> rfl

/-- An operation ends in a world that is related to the one it started in. -/
def Does (R : World → World → Prop) (a : Act α) (w : World) : Prop := R w (a.run w).2

namespace Does
variable {R : World → World → Prop} {a : Act α}

lemma pure [Std.Refl R] (x : α) : Does R (Pure.pure x : Act α) w := refl_of R w

lemma throw [Std.Refl R] (e : ClientError) : Does R (MonadExcept.throw e : Act α) w := refl_of R w

/-- The rule for steps in a row. -/
theorem bind [IsTrans World R] {f : α → Act β} (ha : Does R a w)
    (hf : ∀ x w', a.run w = (.ok x, w') → R w w' → Does R (f x) w') : Does R (a >>= f) w := by
  unfold Does at ha ⊢
  rw [run_bind]
  rcases hr : a.run w with ⟨e | x, w'⟩
  · rw [hr] at ha
    exact ha
  · rw [hr] at ha
    exact trans_of R ha (hf x w' hr ha)

/-- An operation that begins by looking at the world. -/
lemma get {f : World → Act β} (h : Does R (f w) w) : Does R (MonadState.get >>= f) w := h

/-- An operation that fails at its first step. -/
lemma throw_bind [Std.Refl R] {f : α → Act β} (e : ClientError) :
    Does R ((MonadExcept.throw e : Act α) >>= f) w := refl_of R w

/-- The rule for steps whose results do not matter. -/
lemma seq [IsTrans World R] {f : α → Act β} (ha : Does R a w) (hf : ∀ x w', R w w' → Does R (f x) w') :
    Does R (a >>= f) w := ha.bind fun x w' _ => hf x w'

theorem tryCatch [IsTrans World R] {f : ClientError → Act α} (ha : Does R a w)
    (hf : ∀ e w', a.run w = (.error e, w') → R w w' → Does R (f e) w') :
    Does R (MonadExcept.tryCatch a f) w := by
  unfold Does at ha ⊢
  rw [run_tryCatch]
  rcases hr : a.run w with ⟨e | x, w'⟩
  · rw [hr] at ha
    exact trans_of R ha (hf e w' hr ha)
  · rw [hr] at ha
    exact ha

lemma dressed [Std.Refl R] [IsTrans World R] {dress : ClientError → ClientError} (ha : Does R a w) :
    Does R (dressed dress a) w :=
  ha.tryCatch fun _ _ _ _ => throw _

lemma ofExcept [Std.Refl R] (r : Except ClientError α) : Does R (ofExcept r) w := by
  cases r
  · exact throw _
  · exact pure _

lemma checked [Std.Refl R] (r : Option α) : Does R (checked r) w := by
  cases r
  · exact throw _
  · exact pure _

end Does

/-- The relation between the worlds of an outcome at hand. -/
lemma Does.rel {R : World → World → Prop} {a : Act α} {r : Except ClientError α} (h : Does R a w)
    (hr : a.run w = (r, w')) : R w w' := by
  unfold Does at h
  rwa [hr] at h

lemma Does.mono {R S : World → World → Prop} {a : Act α} (h : Does R a w) (hs : ∀ v, R w v → S w v) :
    Does S a w := hs _ h

/-! ### Results of the combinators -/

lemma ok_of_bind {a : Act α} {f : α → Act β} {y : β} (h : (a >>= f).run w = (.ok y, w')) :
    ∃ x v, a.run w = (.ok x, v) ∧ (f x).run v = (.ok y, w') := by
  rw [run_bind] at h
  rcases hr : a.run w with ⟨e | x, v⟩
  · rw [hr] at h
    cases h
  · rw [hr] at h
    exact ⟨x, v, rfl, h⟩

/-- Operations in a row fail where one of them does. -/
lemma error_of_bind {a : Act α} {f : α → Act β} {e : ClientError} (h : (a >>= f).run w = (.error e, w')) :
    a.run w = (.error e, w') ∨ ∃ x v, a.run w = (.ok x, v) ∧ (f x).run v = (.error e, w') := by
  rw [run_bind] at h
  rcases hr : a.run w with ⟨e' | x, v⟩ <;> rw [hr] at h
  · obtain ⟨he, rfl⟩ := Prod.mk.inj h
    obtain rfl := Except.error.inj he
    exact .inl rfl
  · exact .inr ⟨x, v, rfl, h⟩

/-- A primitive that has to succeed either does, or leaves an error that is taken. -/
lemma run_require (dress : ClientError → ClientError) (f : Library → Option α × Library) (w : World) :
    (require dress f).run w =
      match f w.library with
      | (some x, l) => (.ok x, { w with library := l })
      | (none, l) => (.error (dress (.ofNative l.lastError.1)), { w with library := l.lastError.2 }) := by
  rw [require, run_bind, run_native]
  obtain ⟨_ | x, l⟩ := f w.library
  · rfl
  · rfl

/-- The rule for a primitive that has to succeed: its error is taken when it does not. -/
lemma Does.require {R : World → World → Prop} [IsTrans World R] {dress : ClientError → ClientError}
    {f : Library → Option α × Library} (h : R w { w with library := (f w.library).2 })
    (herror : ∀ l, R { w with library := l } { w with library := l.lastError.2 }) : Does R (Act.require dress f) w := by
  unfold Does
  rw [run_require]
  rcases hf : f w.library with ⟨_ | x, l⟩ <;> rw [hf] at h
  · exact trans_of R h (herror l)
  · exact h

/-- A primitive that had to succeed, and did. -/
lemma ok_of_require {dress : ClientError → ClientError} {f : Library → Option α × Library} {x : α}
    (h : (require dress f).run w = (.ok x, w')) : ∃ l, f w.library = (some x, l) ∧ w' = { w with library := l } := by
  rw [run_require] at h
  rcases hf : f w.library with ⟨_ | y, l⟩ <;> rw [hf] at h
  · cases h
  · obtain ⟨h1, rfl⟩ := Prod.mk.inj h
    obtain rfl := Except.ok.inj h1
    exact ⟨l, rfl, rfl⟩

/-- An operation whose error would have been dressed, and that had none. -/
lemma ok_of_dressed {dress : ClientError → ClientError} {a : Act α} {x : α}
    (h : (dressed dress a).run w = (.ok x, w')) : a.run w = (.ok x, w') := by
  rw [dressed, run_tryCatch] at h
  rcases hr : a.run w with ⟨e | y, v⟩ <;> rw [hr] at h
  · cases h
  · exact h

/-- An operation that would have been swept up after, and succeeded. -/
lemma ok_of_undoing {sweep : World → World} {a : Act α} {x : α} (h : (undoing sweep a).run w = (.ok x, w')) :
    a.run w = (.ok x, w') := by
  rw [undoing, run_tryCatch] at h
  rcases hr : a.run w with ⟨e | y, v⟩ <;> rw [hr] at h
  · cases h
  · exact h

/-- An operation that was swept up after had failed. -/
lemma error_of_undoing {sweep : World → World} {a : Act α} {e : ClientError}
    (h : (undoing sweep a).run w = (.error e, w')) : ∃ v, a.run w = (.error e, v) ∧ w' = sweep v := by
  rw [undoing, run_tryCatch] at h
  rcases hr : a.run w with ⟨e' | x, v⟩ <;> rw [hr] at h
  · obtain ⟨h1, h2⟩ := Prod.mk.inj h
    exact ⟨v, congrArg (fun e => (Except.error e, v)) (Except.error.inj h1), h2.symm⟩
  · cases h

/-- A primitive that was asked for something it may not have, and had it. -/
lemma ok_of_optional {dress : ClientError → ClientError} {f : Library → Option α × Library} {x : α}
    (h : (optional dress f).run w = (.ok (some x), w')) :
    ∃ l, f w.library = (some x, l) ∧ w' = { w with library := l } := by
  rw [optional, run_bind, run_native] at h
  rcases hf : f w.library with ⟨_ | y, l⟩
  · rw [hf] at h
    dsimp only at h
    rw [run_bind, run_native] at h
    cases he : l.takeError.1 <;> simp only [he] at h <;> cases h
  · rw [hf] at h
    obtain ⟨h1, rfl⟩ := Prod.mk.inj h
    obtain rfl := Option.some.inj (Except.ok.inj h1)
    exact ⟨l, rfl, rfl⟩

end Act
end DbClient
