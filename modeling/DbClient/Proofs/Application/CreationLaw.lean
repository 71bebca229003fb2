import DbClient.Proofs.Application.Runs
import DbClient.Proofs.Frame.Constructors

/-! The law of creation. An application may wrap any native handles without owning them, those among them that the
native library has not made yet. Its constructors then fail where they meet such a wrapper, and wherever the native
library fails; what they had made by then is undone. -/
namespace DbClient
open Act World

/-! ### Borrowing -/

/-- A wrapper that does not own its handle advances nothing. -/
lemma Wrapper.advances_wrap {w : World} (hf : w.Forest) {env : Nat} (he : w.Housed env) (native : Address)
    (kind : HandleKind) (parent : Option Wrapper) (onRelease : ReleaseAction) :
    World.Advances w ((wrap env native kind parent false onRelease).run w).2 := by
  obtain ⟨r, w', hrun, hcases⟩ := wrap_cases hf env native kind parent false onRelease
  rw [hrun]
  obtain ⟨e, -, rfl, -⟩ | ⟨id, n, -, hl, -, -, rfl⟩ | ⟨q, hu, hq, -, rfl⟩ := hcases
  · exact .refl _
  · exact .modifyNode (f := fun n => { n with holders := n.holders + 1 }) (fun _ => rfl) id w
  · exact .grow (l := w.library) hf (fits_wrapping hu hq he) (.refl _) nofun

/-- What is allowed to an application that wraps foreign handles without owning them, and does not make destruction
fail. -/
def Operation.Borrows : Operation → Prop
  | wrap _ _ _ _ owned _ => owned = false
  | op => op.Permitted ⟨false, false⟩

namespace Application
variable {a : Application} {op : Operation}

lemma permitted_of_borrows (hb : op.Borrows) : op.Permitted ⟨true, false⟩ := by
  cases op with
  | wrap => rfl
  | library k =>
    cases k with
    | foreign f => rfl
    | _ => exact hb
  | item i k => cases k <;> exact hb
  | _ => trivial

/-- The applications to which borrowing leads. -/
inductive Borrowed : Application → Prop
  | start : Borrowed Application.start
  | step {a : Application} {op : Operation} (h : Borrowed a) (hb : op.Borrows) (hr : a.Ready op) : Borrowed (op.after a)

lemma Borrowed.reachable (h : Borrowed a) : Reachable ⟨true, false⟩ a := by
  induction h with
  | start => exact Relation.ReflTransGen.refl
  | step _ hb hr ih => exact ih.tail ⟨_, permitted_of_borrows hb, hr, rfl⟩

lemma Borrowed.play {ops : List Operation} (h : Borrowed a) (hb : ∀ op ∈ ops, op.Borrows)
    (hl : Legal ⟨true, false⟩ ops a) : Borrowed (play ops a) := by
  induction ops generalizing a with
  | nil => exact h
  | cons op rest ih =>
    obtain ⟨-, hr, hrest⟩ := hl
    exact ih (h.step (hb op List.mem_cons_self) hr) (fun op hop => hb op (List.mem_cons_of_mem _ hop)) hrest

/-- Each operation by which an application borrows advances the world. -/
lemma advances_after (ha : a.Fit) (hb : op.Borrows) (hr : a.Ready op) :
    World.Advances a.world (op.after a).world := by
  have hstep : op.Permitted ⟨false, false⟩ → World.Advances a.world (op.after a).world := fun hp =>
    Path.advances (Step.path ⟨op, hp, hr, rfl⟩ ha) ha.sound
  cases op with
  | wrap env native kind parent owned onRelease =>
    obtain rfl : owned = false := hb
    change World.Advances a.world ((Operation.wrap env native kind parent false onRelease).perform.run a.world).2
    rw [Operation.perform, run_get_bind]
    cases he : a.world.envs.get? env with
    | none => exact .refl _
    | some e =>
      have hhoused : a.world.Housed env := by
        rw [Housed, store?, he]
        rfl
      have hwrap := Wrapper.advances_wrap ha.sound.forest hhoused native kind (parent.map Item.wrapper) onRelease
      dsimp only
      rw [run_bind]
      split <;> rename_i hr <;> rw [hr] at hwrap <;> exact hwrap
  | _ => exact hstep hb

/-- Numbers rise along every run. -/
theorem Borrowed.numbered (h : Borrowed a) : a.world.Numbered := by
  induction h with
  | start => exact World.numbered_fresh
  | step h hb hr ih => exact ih.advance (advances_after h.reachable.fit hb hr)

/-! ### The law -/

/-- What is left by constructors that fail. -/
structure CreationLaw (a : Application) : Prop where
  /-- A connection that cannot be made leaves all as it was, except that the callback goes which is kept under its
  number. -/
  connect : ∀ e params err w', a.Holds (.environment e) → (e.connect params).run a.world = (.error err, w') →
    Restored a.world w' ∨ a.world.callback? e.env a.world.library.upcoming ≠ none ∧
      Restored (a.world.removeCallback e.env a.world.library.upcoming).2 w'
  /-- A statement that cannot be created leaves all as it was, -/
  statement : ∀ c err w', a.Holds (.connection c) → (Statement.create c).run a.world = (.error err, w') →
    Restored a.world w'
  /-- and so does one that cannot be created with its text. -/
  prepare : ∀ c sql err w', a.Holds (.connection c) → (c.prepare sql).run a.world = (.error err, w') →
    Restored a.world w'
  /-- A bare handle that cannot be allocated leaves all as it was, unless its number is wrapped already: then the
  handle is left. -/
  allocate : ∀ (e : Environment) kind parent err w', (e.allocate kind parent).run a.world = (.error err, w') →
    Restored a.world w' ∨ (a.world.stored? e.env a.world.library.upcoming).isSome = true ∧ ∃ under l,
      Library.create kind under a.world.library = (some a.world.library.upcoming, l) ∧
        w' = { a.world with library := l }
  /-- A handle that is left has come to those that are alive, and there is no node that will destroy it. -/
  left : ∀ kind under l, Library.create kind under a.world.library = (some a.world.library.upcoming, l) →
    (∀ x, l.handles.get? x = if a.world.library.upcoming = x then some kind else a.world.library.handles.get? x) ∧
      a.world.library.handles.get? a.world.library.upcoming = none ∧
      ∀ id n, a.world.Live id n → n.owned = true → n.native ≠ a.world.library.upcoming

/-- The law of creation holds whenever an application that borrows is between two operations. -/
theorem Borrowed.creationLaw (h : Borrowed a) : CreationLaw a where
  connect e params err w' he hr := by
    have hfit := h.reachable.fit
    have hends := Connection.connect_fails e.root params hfit.sound.forest h.numbered
      (hfit.housed_of_holds he)
    exact hends.elim hr err rfl
  statement c err w' hc hr := by
    have hfit := h.reachable.fit
    obtain ⟨-, -, hrestored⟩ | ⟨s, hs, -⟩ := (Statement.create_cases c hfit.sound.forest h.numbered
      (hfit.housed_of_holds hc)).elim hr
    · exact hrestored
    · cases hs
  prepare c sql err w' hc hr := by
    have hfit := h.reachable.fit
    have hends := c.prepare_fails sql hfit.sound.forest hfit.sound.held h.numbered (hfit.housed_of_holds hc)
    exact hends.elim hr err rfl
  allocate e kind parent err w' hr := (e.allocate_fails kind parent h.reachable.fit.sound.forest).elim hr err rfl
  left kind under l hc := by
    refine ⟨fun x => ?_, h.numbered.not_alive hc, fun id n hl ho => h.numbered.not_owned hc hl ho⟩
    rw [(Library.created hc).handles, Assoc.get?_put]

/-- An application wraps the number of the next native handle, without owning it. Then neither a connection nor a
statement nor a bare handle can be made; the two former leave no handle behind. -/
theorem creationLaw_behind_wrapper :
    let e : Environment := ⟨0, ⟨some 0⟩⟩
    let c : Connection := ⟨0, ⟨some 1⟩⟩
    let a := play [.createEnvironment default, .environment e (.connect (.ofPassword "db" "user" "word")),
      .wrap 0 ⟨0x1030⟩ .lob none false .nothing] start
    CreationLaw a ∧ (a.Holds (.environment e) ∧ a.Holds (.connection c)) ∧ a.world.library.upcoming = ⟨0x1030⟩ ∧
      ((e.connect (.ofPassword "db" "user" "word")).run a.world).1 =
        .error (.invalidState "acquire" .alreadyTransient) ∧
      ((e.connect (.ofPassword "db" "user" "word")).run a.world).2.library.handles = a.world.library.handles ∧
      ((c.prepare "q").run a.world).1 = .error (.invalidState "acquire" .alreadyTransient) ∧
      ((c.prepare "q").run a.world).2.library.handles = a.world.library.handles := by
  refine ⟨Borrowed.creationLaw (Borrowed.start.play ?_ ?_), by decide +kernel, by decide +kernel, by decide +kernel,
    by decide +kernel, by decide +kernel, by decide +kernel⟩
  · simp [Operation.Borrows, Operation.Permitted]
  · exact ⟨trivial, by decide +kernel, trivial, by decide +kernel, rfl, by decide +kernel, trivial⟩

/-- The allocation of a bare handle fails behind such a wrapper, but the native handle that it has created is alive
afterwards. -/
theorem failed_allocation_leaves_handle :
    let e : Environment := ⟨0, ⟨some 0⟩⟩
    let a := play [.createEnvironment default, .wrap 0 ⟨0x1020⟩ .lob none false .nothing] start
    Borrowed a ∧ a.Holds (.environment e) ∧
      ((e.allocate .lob none).run a.world).1 = .error (.invalidState "acquire" .alreadyTransient) ∧
      a.world.library.handles.get? ⟨0x1020⟩ = none ∧
      ((e.allocate .lob none).run a.world).2.library.handles.get? ⟨0x1020⟩ = some .lob := by
  refine ⟨Borrowed.start.play ?_ ?_, by decide +kernel, by decide +kernel, by decide +kernel, by decide +kernel⟩
  · simp [Operation.Borrows, Operation.Permitted]
  · exact ⟨trivial, by decide +kernel, rfl, by decide +kernel, trivial⟩

end Application
end DbClient
