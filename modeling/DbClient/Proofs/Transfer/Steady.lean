import DbClient.Proofs.Transfer.Execution

/-! Injected failures are used up and never come up by themselves: a primitive that is not to fail before a release,
an exchange or an execution is not to fail after it. -/
namespace DbClient
open Act World

namespace Library
variable {α : Type} {l l' l'' : Library} {op p : Primitive} {a stmt : Address} {name : String} {pos : Nat}

/-- A primitive that was not to fail is not to fail now. -/
def Steadies (p : Primitive) (l l' : Library) : Prop := l.failures.get? p = none → l'.failures.get? p = none

namespace Steadies

lemma of_eq (h : l'.failures = l.failures) : Steadies p l l' := fun hf => by rw [h, hf]

lemma run {body : Library → Option α × Library} (hb : ∀ m, Steadies p m (body m).2) (l : Library) :
    Steadies p l (Library.run op a body l).2 := by
  unfold Library.run
  dsimp only
  split
  · intro hf
    change (l.failures.erase op).get? p = none
    rw [Assoc.get?_erase]
    split
    · rfl
    · exact hf
  · exact fun hf => hb _ hf

lemma withBound {body : Bound → Library → Option α × Library} (hb : ∀ b m, Steadies p m (body b m).2) (l : Library) :
    Steadies p l (Library.withBound stmt name pos body l).2 := by
  unfold Library.withBound
  split
  · exact of_eq rfl
  · split
    · exact hb _ _
    · exact of_eq rfl

lemma dataSize (l : Library) : Steadies p l (Library.dataSize stmt name pos l).2 :=
  run (withBound fun _ _ => of_eq rfl) l

lemma setDataSize (size : Nat) (l : Library) : Steadies p l (Library.setDataSize stmt name pos size l).2 := by
  refine run (withBound fun b m => ?_) l
  split <;> exact of_eq rfl

lemma destroy (kind : HandleKind) (h : Address) (l : Library) : Steadies p l (Library.destroy kind h l).2 := by
  refine run (fun m => ?_) l
  split
  · exact of_eq rfl
  · exact of_eq (dropped h { m with handles := m.handles.erase h }).failures

lemma prepare (stmt : Address) (sql : String) (mode : PrepareMode) (l : Library) :
    Steadies p l (Library.prepare stmt sql mode l).2 := by
  refine run (fun m => ?_) l
  split
  · exact of_eq rfl
  · split
    · exact of_eq rfl
    · exact of_eq (dropped stmt m).failures

end Steadies
end Library

namespace World
variable {w w' w'' : World} {p : Primitive}

/-- A primitive that was not to fail is not to fail now. -/
def Steadies (p : Primitive) (w w' : World) : Prop := w.library.Steadies p w'.library

namespace Steadies

instance : Std.Refl (Steadies p) := ⟨fun _ => id⟩

instance : IsTrans World (Steadies p) := ⟨fun _ _ _ h h' hf => h' (h hf)⟩

lemma of_eq (h : w'.library = w.library) : Steadies p w w' := Library.Steadies.of_eq (by rw [h])

lemma require {α : Type} {dress : ClientError → ClientError} {f : Library → Option α × Library}
    (hf : ∀ l, Library.Steadies p l (f l).2) : Does (Steadies p) (Act.require dress f) w :=
  Does.require (hf w.library) fun _ => Library.Steadies.of_eq rfl

/-! ### Releases -/

lemma performAction (n : Node) (w : World) : Steadies p w (w.performAction n) := by
  unfold World.performAction
  split
  · exact of_eq rfl
  · dsimp only
    split <;> exact of_eq rfl
  · split <;> exact of_eq rfl
  · exact of_eq rfl

lemma releasing : Releasing (Steadies p) where
  mark _ _ := of_eq rfl
  cut _ _ := of_eq rfl
  parent id w := by
    unfold World.leaveParent
    split <;> exact of_eq rfl
  store id w := by
    unfold World.leaveStore
    split
    · exact of_eq rfl
    · split <;> exact of_eq rfl
  action id w := by
    unfold World.runReleaseAction
    split
    · exact of_eq rfl
    · rename_i n _
      have htrace : Steadies p w (if n.onRelease = .nothing then w else w.trace (.action id)) := by
        split <;> exact of_eq rfl
      exact trans_of (Steadies p) htrace (performAction n _)
  native id w := by
    unfold World.leaveNative
    split
    · exact of_eq rfl
    · rename_i n _
      split
      · have hgo := Library.Steadies.destroy (p := p) n.kind n.native w.library
        dsimp only [trace]
        rcases hd : Library.destroy n.kind n.native w.library with ⟨_ | _, l⟩ <;> rw [hd] at hgo <;> exact hgo
      · exact of_eq rfl

end Steadies
end World

/-! ### Exchanges and executions -/

namespace BindObject
variable {stmt : Address} {arraySize : Nat} {p : Primitive}

lemma steadies_loading (stmt : Address) (o : BindObject) : Loading (Steadies p) (fun _ => True) stmt o where
  lasts _ _ _ _ := trivial
  write _ _ _ := Steadies.of_eq rfl
  report _ _ size _ := Steadies.require (Library.Steadies.setDataSize size)
  note _ _ := Steadies.of_eq rfl

lemma steadies_unloading (stmt : Address) (arraySize : Nat) (o : BindObject) :
    Unloading (Steadies p) (fun _ => True) stmt arraySize o where
  lasts _ _ _ _ := trivial
  ask _ _ _ _ := (Steadies.require Library.Steadies.dataSize).seq fun _ _ _ => Does.pure _
  single _ _ _ _ _ _ := Steadies.of_eq rfl
  element _ _ _ _ _ _ _ _ := Steadies.of_eq rfl
  note _ _ := Steadies.of_eq rfl

end BindObject

namespace Statement
variable {w u : World} {stmt : Address} {p : Primitive}

lemma steadies_releaseResultsets (s : Statement) (w : World) : Does (Steadies p) s.releaseResultsets w :=
  Steadies.releasing.releaseChildren s.handle _ w

lemma steadies_load (s : Statement) (w : World) : Does (Steadies p) s.load w := by
  refine Does.live fun _ n _ _ => (s.steadies_releaseResultsets w).seq fun _ v _ => Does.data fun _ _ d _ _ _ =>
    Does.requireStatus fun _ => ?_
  have hpush : Does (Steadies p) (d.binds.push n.native d.arraySize) v := BindObject.does_exchangeAll
    (fun _ _ _ _ => trivial) (fun o _ _ hw => (BindObject.steadies_loading n.native o).push hw d.arraySize) trivial
  exact hpush.dressed.seq fun _ _ _ => Does.pure _

lemma steadies_prepare (s : Statement) (mode : PrepareMode) (sql : String) (w : World) :
    Does (Steadies p) (s.prepare mode sql) w := by
  have hput : ∀ d v, Steadies p v (s.putData d v) := fun d v => .of_eq (s.putData_aside d v).1
  refine Does.live fun _ _ _ _ => (s.steadies_releaseResultsets w).seq fun _ v _ => Does.data fun _ _ d _ _ _ => ?_
  have hclose : Does (Steadies p) (Act.update fun w => (s.putData (d.reset sql) w).freeBuffers d.binds.buffers) v :=
    hput (d.reset sql) v
  refine hclose.seq fun _ _ _ => (Steadies.require (Library.Steadies.prepare _ _ _)).seq fun _ u _ => ?_
  have hrenew : Does (Steadies p) (Act.update (s.putData { d.reset sql with status := .ofMode mode })) u := hput _ u
  exact hrenew.seq fun _ _ _ => .of_eq rfl

/-- The hook of a statement cannot make primitives fail. -/
lemma steadies_of_runNative {iters : Nat} (h : runNative stmt iters w = (some (), u)) : Steadies p w u := by
  obtain ⟨results, memory, l, he, rfl⟩ := ok_of_runNative h
  obtain ⟨opened, hexec⟩ := Library.executed he
  exact Library.Steadies.of_eq hexec.failures

end Statement
end DbClient
