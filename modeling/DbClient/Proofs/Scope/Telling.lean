import DbClient.Proofs.Scope.Calls
import DbClient.Resultset

/-! Operations that tell what they do and whose error they return: they take steps within a scope, and if they fail with
an error of the native library, it is the one that a call of theirs recorded. The rules follow the way in which
operations are put together. -/
namespace DbClient
open World

namespace ClientError

/-- The error of the native library that lies behind this one. -/
def source? : ClientError → Option NativeError
  | native source _ => some source
  | _ => none

@[simp] lemma source?_ofNative (e : NativeError) : (ofNative e).source? = some e := rfl

@[simp] lemma source?_mapContext (f : Context → Context) (e : ClientError) : (mapContext f e).source? = e.source? := by
  cases e <;> rfl

@[simp] lemma source?_withSql (sql : Option String) (e : ClientError) : (withSql sql e).source? = e.source? := by
  rw [withSql, source?_mapContext]

@[simp] lemma source?_withBind (name : String) (e : ClientError) : (withBind name e).source? = e.source? := by
  rw [withBind, source?_mapContext]

@[simp] lemma source?_withRow (row : Nat) (e : ClientError) : (withRow row e).source? = e.source? := by
  rw [withRow, source?_mapContext]

@[simp] lemma source?_withHandle (handle : Address) (e : ClientError) : (withHandle handle e).source? = e.source? := by
  rw [withHandle, source?_mapContext]

end ClientError

@[simp] lemma Resultset.source?_explain (rs : Resultset) (w : World) (row : Option Nat) (e : ClientError) :
    (rs.explain w row e).source? = e.source? := by
  unfold explain
  cases row <;> simp

namespace Act
variable {α β : Type} {S : Scope} {o w w' : World} {a : Act α} {dress : ClientError → ClientError}

/-- An operation takes steps, counted from an earlier world on, and its native error is one that a call recorded which
was made since then. -/
structure Tells (S : Scope) (o : World) (a : Act α) (w : World) : Prop where
  within : StepsWithin S o (a.run w).2
  blames : ∀ x e, (a.run w).1 = .error x → x.source? = some e → o.library.Blames (a.run w).2.library e

/-- The native error of a function of errors is the one that it is applied to. -/
def Honest (dress : ClientError → ClientError) : Prop := ∀ e, (dress e).source? = e.source?

namespace Tells

/-- Operations that run in the same way tell the same. -/
lemma of_run {b : Act α} {v : World} (h : a.run w = b.run v) (hb : Tells S o b v) : Tells S o a w :=
  ⟨h ▸ hb.within, h ▸ hb.blames⟩

lemma of_ok {x : α} {v : World} (hr : a.run w = (.ok x, v)) (h : StepsWithin S o v) : Tells S o a w := by
  refine ⟨hr ▸ h, fun y e hy _ => ?_⟩
  rw [hr] at hy
  cases hy

lemma pure (h : StepsWithin S o w) (x : α) : Tells S o (Pure.pure x) w := of_ok rfl h

lemma update (f : World → World) (h : StepsWithin S o (f w)) : Tells S o (Act.update f) w := of_ok rfl h

lemma modifyGet (f : World → α × World) (h : StepsWithin S o (f w).2) : Tells S o (MonadState.modifyGet f : Act α) w :=
  of_ok rfl h

/-- An error that is told already. -/
lemma rethrow (h : StepsWithin S o w) {x : ClientError}
    (hx : ∀ e, x.source? = some e → o.library.Blames w.library e) : Tells S o (MonadExcept.throw x : Act α) w := by
  have hr : (MonadExcept.throw x : Act α).run w = (.error x, w) := rfl
  refine ⟨hr ▸ h, fun y e hy he => ?_⟩
  rw [hr] at hy ⊢
  obtain rfl := Except.error.inj hy
  exact hx e he

/-- An error of the client itself. -/
lemma throw (h : StepsWithin S o w) {x : ClientError} (hx : x.source? = none) :
    Tells S o (MonadExcept.throw x : Act α) w := rethrow h fun _ he => absurd (hx.symm.trans he) nofun

theorem bind {f : α → Act β} (ha : Tells S o a w)
    (hf : ∀ x v, a.run w = (.ok x, v) → StepsWithin S o v → Tells S o (f x) v) : Tells S o (a >>= f) w := by
  rcases hr : a.run w with ⟨x | x, v⟩
  · refine ⟨?_, fun y e hy he => ?_⟩
    · have h := ha.within
      rw [hr] at h
      rw [run_bind, hr]
      exact h
    · have h := ha.blames x e (by rw [hr])
      rw [run_bind, hr] at hy ⊢
      rw [hr] at h
      cases hy
      exact h he
  · have hv := ha.within
    rw [hr] at hv
    obtain ⟨hwithin, hblames⟩ := hf x v hr hv
    constructor
    · rw [run_bind, hr]
      exact hwithin
    · rw [run_bind, hr]
      exact hblames

/-- An operation that comes after others. -/
theorem onward (h : StepsWithin S o w) (ha : Tells S w a w) : Tells S o a w :=
  ⟨h.trans ha.within, fun x e hx he => (ha.blames x e hx he).earlier h.calls⟩

/-- The rule for operations in a row. -/
theorem seq {f : α → Act β} (ha : Tells S w a w)
    (hf : ∀ x v, a.run w = (.ok x, v) → StepsWithin S w v → Tells S v (f x) v) : Tells S w (a >>= f) w :=
  ha.bind fun x v hr hv => onward hv (hf x v hr hv)

/-- The rule for a change of the world. -/
lemma update_bind {f : World → World} {g : Unit → Act β} (h : StepsWithin S o (f w)) (hg : Tells S (f w) (g ()) (f w)) :
    Tells S o (Act.update f >>= g) w := of_run (b := g ()) rfl (onward h hg)

lemma get {f : World → Act β} (h : Tells S o (f w) w) : Tells S o (MonadState.get >>= f) w :=
  of_run (b := f w) rfl h

lemma throw_bind {f : α → Act β} (h : StepsWithin S o w) {x : ClientError} (hx : x.source? = none) :
    Tells S o ((MonadExcept.throw x : Act α) >>= f) w := throw (α := β) h hx

lemma note (n : Notice) (h : StepsWithin S o w) : Tells S o (Act.note n) w := update _ (h.trans (.log _ w))

/-- A result that does not matter. -/
lemma giving {f : α → β} (ha : Tells S o a w) : Tells S o (a >>= fun x => Pure.pure (f x)) w :=
  ha.bind fun x _ _ hv => pure hv (f x)

lemma ofExcept {r : Except ClientError α} (h : StepsWithin S o w) (hr : ∀ x, r = .error x → x.source? = none) :
    Tells S o (Act.ofExcept r) w := by
  cases r with
  | ok x => exact pure h x
  | error x => exact throw h (hr x rfl)

lemma checked (h : StepsWithin S o w) (r : Option α) : Tells S o (Act.checked r) w := by
  cases r with
  | none => exact throw h rfl
  | some x => exact pure h x

/-- An operation that begins by making an object, whose lengths have to fit. -/
lemma make {plan : BindPlan} {f : BindObject → Act β} (h : StepsWithin S o w)
    (hf : plan.Fits → Tells S o (f (BindObject.place plan w).1) (BindObject.place plan w).2) :
    Tells S o (BindObject.make plan >>= f) w := by
  unfold BindObject.make
  split
  · rename_i hfit
    exact of_run (b := f _) (v := (BindObject.place plan w).2) rfl (hf hfit)
  · exact throw_bind h rfl

/-- What follows an operation that fails tells for it. -/
theorem tryCatch {f : ClientError → Act α} (ha : Tells S o a w)
    (hf : ∀ x v, a.run w = (.error x, v) → StepsWithin S o v →
      (∀ e, x.source? = some e → o.library.Blames v.library e) → Tells S o (f x) v) :
    Tells S o (MonadExcept.tryCatch a f) w := by
  rcases hr : a.run w with ⟨x | x, v⟩
  · have hwithin := ha.within
    have hblames := ha.blames x
    rw [hr] at hwithin hblames
    obtain ⟨hd, hb⟩ := hf x v hr hwithin fun e he => hblames e rfl he
    constructor
    · rw [run_tryCatch, hr]
      exact hd
    · rw [run_tryCatch, hr]
      exact hb
  · have hwithin := ha.within
    rw [hr] at hwithin
    exact of_ok (by rw [run_tryCatch, hr]) hwithin

lemma dressed (hd : Honest dress) (ha : Tells S o a w) : Tells S o (Act.dressed dress a) w :=
  ha.tryCatch fun x _ _ hv hb => rethrow hv fun e he => hb e ((hd x).symm.trans he)

/-- Sweeping up takes steps of its own. -/
lemma undoing {sweep : World → World} (ha : Tells S o a w) (hs : ∀ v, StepsWithin S o v → StepsWithin S v (sweep v)) :
    Tells S o (Act.undoing sweep a) w :=
  ha.tryCatch fun x v _ hv hb => by
    have hsweep := hs v hv
    have hthrow : Tells S o (MonadExcept.throw x : Act α) (sweep v) :=
      rethrow (hv.trans hsweep) fun e he => (hb e he).later hsweep.calls
    exact of_run (b := MonadExcept.throw x) rfl hthrow

/-! ### Calls -/

/-- An operation that begins with a step of the library. -/
lemma native_bind {f : Library → α × Library} {g : α → Act β}
    (h : Tells S o (g (f w.library).1) { w with library := (f w.library).2 }) : Tells S o (Act.native f >>= g) w :=
  of_run (by rw [run_bind, run_native]) h

/-- The failure of a call whose error has been taken. -/
lemma failed {i : Invocation} {x : ClientError} {e : NativeError} (hr : i.Records w.library e)
    (h : StepsWithin S w { w with library := (i.run w.library).2 }) (hx : x.source? = some e)
    (hend : StepsWithin S { w with library := (i.run w.library).2 } w') : Tells S w (MonadExcept.throw x : Act α) w' :=
  rethrow (h.trans hend) fun e' he' => by
    obtain rfl := Option.some.inj (hx.symm.trans he')
    exact Library.Blames.call hr hend.calls

/-- A primitive that has to succeed, and an operation that goes on when it does. -/
theorem require_then {f : Library → Option α × Library} {g : α → Act β} (i : Invocation)
    (hi : ∀ l, Invocation.gave (f l) = i.run l) (hd : Honest dress) (hs : ¬i.Seeks)
    (hfail : (i.run w.library).1 = false → StepsWithin S w { w with library := (i.run w.library).2 })
    (hok : ∀ x l, f w.library = (some x, l) → Tells S w (g x) { w with library := l }) :
    Tells S w (Act.require dress f >>= g) w := by
  have hrun := hi w.library
  rcases hf : f w.library with ⟨_ | x, l⟩
  · rw [hf] at hrun
    have hnone : (i.run w.library).1 = false := (congrArg Prod.fst hrun).symm
    have hlib : (i.run w.library).2 = l := (congrArg Prod.snd hrun).symm
    obtain ⟨e, he, hrecords⟩ := Invocation.records_of_failed hs hnone
    have hend : StepsWithin S { w with library := (i.run w.library).2 }
        { w with library := { l with error := none } } :=
      hlib ▸ .single .forget
    refine of_run (b := MonadExcept.throw (dress (.ofNative e))) ?_ (failed hrecords (hfail hnone) (hd _) hend)
    rw [run_bind, run_require, hf]
    dsimp only
    rw [Library.lastError, ← hlib, he, hlib]
    rfl
  · refine of_run ?_ (hok x l hf)
    rw [run_bind, run_require, hf]

/-- A primitive that has to succeed and is a step in either case. -/
lemma require {f : Library → Option α × Library} (i : Invocation) (hi : ∀ l, Invocation.gave (f l) = i.run l)
    (hd : Honest dress) (hs : ¬i.Seeks) (h : StepsWithin S w { w with library := (i.run w.library).2 }) :
    Tells S w (Act.require dress f) w := by
  have hthen : Tells S w (Act.require dress f >>= Pure.pure) w := require_then i hi hd hs (fun _ => h) fun x l hf => by
    have hrun := hi w.library
    rw [hf] at hrun
    obtain rfl : (i.run w.library).2 = l := (congrArg Prod.snd hrun).symm
    exact pure h x
  rwa [bind_pure] at hthen

/-- A primitive that may find nothing. -/
theorem optional {f : Library → Option α × Library} (i : Invocation) (hi : ∀ l, Invocation.gave (f l) = i.run l)
    (hd : Honest dress) (hrow : ∀ rs, i ≠ .currentRow rs)
    (h : StepsWithin S w { w with library := (i.run w.library).2 }) : Tells S w (Act.optional dress f) w := by
  have hrun := hi w.library
  apply native_bind
  rcases hf : f w.library with ⟨_ | x, l⟩ <;> rw [hf] at hrun
  · obtain rfl : (i.run w.library).2 = l := (congrArg Prod.snd hrun).symm
    apply native_bind
    unfold Library.takeError
    dsimp only
    cases he : (i.run w.library).2.error with
    | none => exact pure (h.trans (.single .forget)) none
    | some e =>
      have hnone : (i.run w.library).1 = false := (congrArg Prod.fst hrun).symm
      exact failed (Invocation.records hrow hnone he) h (hd _) (.single .forget)
  · obtain rfl : (i.run w.library).2 = l := (congrArg Prod.snd hrun).symm
    exact pure h (some x)

end Tells
end Act
end DbClient
