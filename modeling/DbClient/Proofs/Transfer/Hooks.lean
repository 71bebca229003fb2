import DbClient.Proofs.Transfer.Steady

/-! Hooks that write to none of the variables of a statement. An execution leaves the buffers and the actual lengths as
it finds them then. What hooks do is settled before executions, which never change it. -/
namespace DbClient
open Act World

/-- The name of the variable to which an action writes. -/
def HookAction.target? : HookAction → Option String
  | .write name _ _ | .writeBytes name _ _ | .append name _ | .sequence name _ => some name
  | _ => none

/-- None of the actions writes to a variable with one of the names. -/
def HookAction.Spare (names : List String) (actions : List HookAction) : Prop :=
  ∀ action ∈ actions, ∀ name ∈ action.target?, name ∉ names

instance (names : List String) (actions : List HookAction) : Decidable (HookAction.Spare names actions) :=
  inferInstanceAs (Decidable (∀ action ∈ actions, ∀ name ∈ action.target?, name ∉ names))

namespace HookState
variable {s : HookState} {name : String} {f : HookState → Nat → Bool × HookState}

lemma write_absent (h : s.binds.get? name = none) (pos : Nat) (d : Datum) : (s.write name pos d).2 = s := by
  rw [write, h]

lemma writeBytes_absent (h : s.binds.get? name = none) (pos : Nat) (bytes : List UInt8) :
    (s.writeBytes name pos bytes).2 = s := by
  rw [writeBytes, h]

lemma forPositions_absent (h : ∀ pos, (f s pos).2 = s) (positions : List Nat) :
    (forPositions f positions s).2 = s := by
  induction positions with
  | nil => rfl
  | cons pos rest ih =>
    simp only [forPositions, h pos]
    exact ih

/-- An action does nothing to other variables than the one to which it writes. -/
lemma perform_spare (sql : String) (iters : Nat) {action : HookAction}
    (h : ∀ name, action.target? = some name → s.binds.get? name = none) : (s.perform sql iters action).2 = s := by
  cases action with
  | write name pos d => exact write_absent (h name rfl) pos d
  | writeBytes name pos bytes => exact writeBytes_absent (h name rfl) pos bytes
  | append name suffix => exact forPositions_absent (fun pos => writeBytes_absent (h name rfl) pos _) _
  | sequence name start => exact forPositions_absent (fun pos => write_absent (h name rfl) pos _) _
  | _ => rfl

theorem performAll_spare (sql : String) (iters : Nat) {actions : List HookAction}
    (h : HookAction.Spare s.binds.keys actions) : (performAll sql iters actions s).2 = s := by
  induction actions with
  | nil => rfl
  | cons action rest ih =>
    have hfirst : (s.perform sql iters action).2 = s := by
      refine perform_spare sql iters fun name ht => ?_
      have hout := h action List.mem_cons_self name ht
      rwa [Assoc.mem_keys, Bool.not_eq_true, Option.isSome_eq_false_iff, Option.isNone_iff_eq_none] at hout
    simp only [performAll, hfirst]
    exact ih fun action hmem => h action (List.mem_cons_of_mem _ hmem)

end HookState

namespace Library
variable {α : Type} {l l' : Library} {stmt : Address} {st : NativeStatement} {sql : String} {mode : PrepareMode}

/-! ### What hooks do -/

lemma hooks_run {op : Primitive} {h : Address} {body : Library → Option α × Library}
    (hb : ∀ m, (body m).2.hooks = m.hooks) (l : Library) : (run op h body l).2.hooks = l.hooks := by
  unfold run
  dsimp only
  split
  · rfl
  · exact hb _

lemma hooks_withBound {name : String} {pos : Nat} {body : Bound → Library → Option α × Library}
    (hb : ∀ b m, (body b m).2.hooks = m.hooks) (l : Library) : (withBound stmt name pos body l).2.hooks = l.hooks := by
  unfold withBound
  split
  · rfl
  · split
    · exact hb _ _
    · rfl

lemma hooks_dataSize (name : String) (pos : Nat) (l : Library) : (dataSize stmt name pos l).2.hooks = l.hooks :=
  hooks_run (hooks_withBound fun _ _ => rfl) l

lemma hooks_setDataSize (name : String) (pos size : Nat) (l : Library) :
    (setDataSize stmt name pos size l).2.hooks = l.hooks := by
  refine hooks_run (hooks_withBound fun b m => ?_) l
  split <;> rfl

lemma hooks_dropResultsets (stmt : Address) (l : Library) : (dropResultsets stmt l).hooks = l.hooks := by
  unfold dropResultsets
  split <;> rfl

lemma hooks_destroy (kind : HandleKind) (h : Address) (l : Library) : (destroy kind h l).2.hooks = l.hooks := by
  refine hooks_run (fun m => ?_) l
  split
  · rfl
  · exact hooks_dropResultsets h { m with handles := m.handles.erase h }

lemma hooks_openResultsets (stmt : Address) (rows : List (List (List Value))) (l : Library) :
    (openResultsets stmt rows l).2.hooks = l.hooks := by
  induction rows generalizing l with
  | nil => rfl
  | cons first rest ih => exact ih _

lemma hooks_execute (stmt : Address) (iters : Nat) (memory : Memory) (l : Library) :
    (execute stmt iters memory l).2.hooks = l.hooks := by
  refine hooks_run (fun m => ?_) l
  unfold withPrepared
  split
  · rfl
  · split
    · rfl
    · exact (hooks_openResultsets stmt _ _).trans (hooks_dropResultsets stmt m)

/-! ### Executions -/

/-- An execution whose hook writes to none of the variables leaves memory and variables as they are. -/
theorem execute_spare {iters : Nat} {memory memory' : Memory} {results : List HookResult}
    (hst : l.stmts.get? stmt = some st) (hp : st.prepared = some (sql, mode))
    (hspare : HookAction.Spare st.binds.keys ((l.hooks.get? sql).getD []))
    (he : execute stmt iters memory l = (some (results, memory'), l')) :
    memory' = memory ∧ ∀ name, l'.bound? stmt name = l.bound? stmt name := by
  obtain ⟨-, hb⟩ := run_some he
  obtain ⟨st', sql', mode', hst', hp', hb⟩ := withPrepared_some hb
  obtain rfl := Option.some.inj (hst.symm.trans hst')
  obtain ⟨rfl, rfl⟩ := Prod.mk.inj (Option.some.inj (hp.symm.trans hp'))
  generalize hm : ({ l.called (some .execute) stmt with error := none } : Library) = m at hb
  have hhooks : m.hooks = l.hooks := by rw [← hm]; rfl
  have hmst : m.stmts.get? stmt = some st := by rw [← hm]; exact hst
  have hdrop := (dropped stmt m).stmts stmt
  rw [if_pos rfl, hmst, Option.map_some] at hdrop
  have hdone := HookState.performAll_spare (s := ⟨st.binds, memory⟩) sql iters hspare
  rw [← hhooks, ← hooks_dropResultsets stmt m] at hdone
  simp only [hdrop, Option.map_some, Option.getD_some] at hb
  obtain ⟨hr, rfl⟩ := Prod.mk.inj hb
  obtain ⟨-, rfl⟩ := Prod.mk.inj (Option.some.inj hr)
  refine ⟨congrArg HookState.memory hdone, fun name => ?_⟩
  have hopened := (opened stmt (((dropResultsets stmt m).scripts.get? sql).getD []) (dropResultsets stmt m)).stmts
  simp only [bound?, Assoc.get?_modify, if_true, hopened, hdrop, hst, Option.map_some, Option.bind_some, hdone]

end Library

namespace World
variable {w w' w'' : World}

/-- Hooks do what they did. -/
def SameHooks (w w' : World) : Prop := w'.library.hooks = w.library.hooks

namespace SameHooks

instance : Std.Refl SameHooks := ⟨fun _ => rfl⟩

instance : IsTrans World SameHooks := ⟨fun _ _ _ h h' => Eq.trans h' h⟩

lemma of_eq (h : w'.library = w.library) : SameHooks w w' := congrArg Library.hooks h

lemma require {α : Type} {dress : ClientError → ClientError} {f : Library → Option α × Library}
    (hf : ∀ l, (f l).2.hooks = l.hooks) : Does SameHooks (Act.require dress f) w :=
  Does.require (hf w.library) fun _ => rfl

lemma performAction (n : Node) (w : World) : SameHooks w (w.performAction n) := by
  unfold World.performAction
  split
  · rfl
  · dsimp only
    split <;> rfl
  · split <;> rfl
  · rfl

lemma releasing : Releasing SameHooks where
  mark _ _ := rfl
  cut _ _ := rfl
  parent id w := by
    unfold World.leaveParent
    split <;> rfl
  store id w := by
    unfold World.leaveStore
    split
    · rfl
    · split <;> rfl
  action id w := by
    unfold World.runReleaseAction
    split
    · rfl
    · rename_i n _
      have htrace : SameHooks w (if n.onRelease = .nothing then w else w.trace (.action id)) := by
        split <;> rfl
      exact trans_of SameHooks htrace (performAction n _)
  native id w := by
    unfold World.leaveNative
    split
    · rfl
    · rename_i n _
      split
      · have hgo := Library.hooks_destroy n.kind n.native w.library
        dsimp only [trace]
        rcases hd : Library.destroy n.kind n.native w.library with ⟨_ | _, l⟩ <;> rw [hd] at hgo <;> exact hgo
      · rfl

end SameHooks
end World

namespace BindObject
variable {stmt : Address} {arraySize : Nat}

lemma sameHooks_loading (stmt : Address) (o : BindObject) : Loading SameHooks (fun _ => True) stmt o where
  lasts _ _ _ _ := trivial
  write _ _ _ := rfl
  report _ _ _ _ := SameHooks.require (Library.hooks_setDataSize _ _ _)
  note _ _ := rfl

lemma sameHooks_unloading (stmt : Address) (arraySize : Nat) (o : BindObject) :
    Unloading SameHooks (fun _ => True) stmt arraySize o where
  lasts _ _ _ _ := trivial
  ask _ _ _ _ := (SameHooks.require (Library.hooks_dataSize _ _)).seq fun _ _ _ => Does.pure _
  single _ _ _ _ _ _ := rfl
  element _ _ _ _ _ _ _ _ := rfl
  note _ _ := rfl

end BindObject

namespace Statement
variable {w u : World} {stmt : Address}

lemma sameHooks_load (s : Statement) (w : World) : Does SameHooks s.load w := by
  have hrelease : Does SameHooks s.releaseResultsets w := SameHooks.releasing.releaseChildren s.handle _ w
  refine Does.live fun _ n _ _ => hrelease.seq fun _ v _ => Does.data fun _ _ d _ _ _ =>
    Does.requireStatus fun _ => ?_
  have hpush : Does SameHooks (d.binds.push n.native d.arraySize) v := BindObject.does_exchangeAll
    (fun _ _ _ _ => trivial) (fun o _ _ hw => (BindObject.sameHooks_loading n.native o).push hw d.arraySize) trivial
  exact hpush.dressed.seq fun _ _ _ => Does.pure _

lemma sameHooks_of_runNative {iters : Nat} (h : runNative stmt iters w = (some (), u)) : SameHooks w u := by
  obtain ⟨results, memory, l, he, rfl⟩ := ok_of_runNative h
  have hexec := Library.hooks_execute stmt iters w.memory w.library
  rw [he] at hexec
  exact hexec

lemma sameHooks_unload (s : Statement) (stmt : Address) (d : StatementData) (w : World) :
    Does SameHooks (s.unload stmt d) w := by
  have hput : Does SameHooks (update (s.putData { d with status := .executed })) w :=
    .of_eq (s.putData_aside { d with status := .executed } w).1
  have hpull : ∀ v, Does SameHooks (d.binds.pull stmt d.arraySize) v := fun v => BindObject.does_exchangeAll
    (fun _ _ _ _ => trivial) (fun o _ _ hw => (BindObject.sameHooks_unloading stmt d.arraySize o).pull hw) trivial
  exact hput.seq fun _ v _ => (hpull v).dressed.seq fun _ _ _ => rfl

end Statement
end DbClient
