import DbClient.Proofs.Forest.Stepwise
import DbClient.Proofs.Moves.Statements
import DbClient.Proofs.Transfer.Pull
import DbClient.Proofs.Transfer.Push

/-! An execution in its three parts: before the native statement is executed variables keep what they hold, after
it nothing more is recorded. -/
namespace DbClient
open Act World

namespace World
variable {w w' w'' : World}

/-- No variable has changed, and no execution has been recorded. -/
structure Aside (w w' : World) : Prop where
  vars : w'.vars = w.vars
  executions : w'.library.executions = w.library.executions

namespace Aside

lemma refl (w : World) : Aside w w := ⟨rfl, rfl⟩

lemma trans (h : Aside w w') (h' : Aside w' w'') : Aside w w'' :=
  ⟨h'.vars.trans h.vars, h'.executions.trans h.executions⟩

instance : Std.Refl Aside := ⟨refl⟩

instance : IsTrans World Aside := ⟨fun _ _ _ => trans⟩

/-! ### Releases -/

lemma leaveParent (id : Nat) (w : World) : Aside w (World.leaveParent id w) := by
  unfold World.leaveParent
  split <;> exact ⟨rfl, rfl⟩

lemma leaveStore (id : Nat) (w : World) : Aside w (World.leaveStore id w) := by
  unfold World.leaveStore
  split
  · exact ⟨rfl, rfl⟩
  · split <;> exact ⟨rfl, rfl⟩

lemma performAction (n : Node) (w : World) : Aside w (World.performAction n w) := by
  unfold World.performAction
  split
  · exact ⟨rfl, rfl⟩
  · dsimp only
    split <;> exact ⟨rfl, rfl⟩
  · split <;> exact ⟨rfl, rfl⟩
  · exact ⟨rfl, rfl⟩

lemma runReleaseAction (id : Nat) (w : World) : Aside w (World.runReleaseAction id w) := by
  unfold World.runReleaseAction
  split
  · exact ⟨rfl, rfl⟩
  · rename_i n _
    have htrace : Aside w (if n.onRelease = .nothing then w else w.trace (.action id)) := by
      split <;> exact ⟨rfl, rfl⟩
    exact htrace.trans ((performAction n _).trans ⟨rfl, rfl⟩)

lemma leaveNative (id : Nat) (w : World) : Aside w (World.leaveNative id w) := by
  unfold World.leaveNative
  split
  · exact ⟨rfl, rfl⟩
  · rename_i n _
    have hgo := Library.executions_letGo n.kind n.native w.library
    unfold Library.letGo at hgo
    split
    · dsimp only [trace]
      rcases hd : Library.destroy n.kind n.native w.library with ⟨_ | _, l⟩ <;> rw [hd] at hgo <;> exact ⟨rfl, hgo⟩
    · exact ⟨rfl, rfl⟩

lemma releasing : Releasing Aside where
  mark _ _ := ⟨rfl, rfl⟩
  cut _ _ := ⟨rfl, rfl⟩
  parent := leaveParent
  store := leaveStore
  action := runReleaseAction
  native := leaveNative

end Aside
end World

namespace Statement
variable {s : Statement} {w w' v u : World} {stmt : Address} {d : StatementData}

lemma aside_releaseResultsets (s : Statement) (w : World) : Does Aside s.releaseResultsets w :=
  Aside.releasing.releaseChildren s.handle _ w

lemma aside_load (s : Statement) (w : World) : Does Aside s.load w := by
  refine Does.live fun _ n _ _ => (s.aside_releaseResultsets w).seq fun _ v _ => Does.data fun _ _ d _ _ _ =>
    Does.requireStatus fun _ => ?_
  have hpush : Does (Loads n.native d.binds.objects) (d.binds.push n.native d.arraySize) v :=
    BindObject.loads_exchangeAll d.arraySize d.binds.objects v
  exact (hpush.mono fun _ h => (⟨h.vars, h.library.executions⟩ : Aside v _)).dressed.seq fun _ _ _ => Does.pure _

/-- What is left to do after the native statement has been executed. -/
def unload (s : Statement) (stmt : Address) (d : StatementData) : Act Unit := do
  Act.update (s.putData { d with status := .executed })
  Act.dressed (ClientError.withSql d.sql) (d.binds.pull stmt d.arraySize)
  Act.note (.executed stmt d.arraySize)

lemma putData_aside (s : Statement) (d : StatementData) (w : World) : (s.putData d w).library = w.library ∧
    (s.putData d w).memory = w.memory ∧ (s.putData d w).vars = w.vars := by
  unfold putData
  split <;> exact ⟨rfl, rfl, rfl⟩

lemma unloads_unload (s : Statement) (stmt : Address) (d : StatementData) (w : World) :
    Does (Unloads stmt d.arraySize d.binds.objects) (s.unload stmt d) w := by
  have hput :
      Does (Unloads stmt d.arraySize d.binds.objects) (update (s.putData { d with status := .executed })) w := by
    obtain ⟨h1, h2, h3⟩ := s.putData_aside { d with status := .executed } w
    exact Unloads.of_eq (.of_eq (by rw [run_update, h1]) (by rw [run_update, h1])) h2 h3
  have hpull : ∀ v, Does (Unloads stmt d.arraySize d.binds.objects) (d.binds.pull stmt d.arraySize) v := fun v =>
    BindObject.unloads_exchangeAll d.arraySize d.binds.objects v
  exact hput.seq fun _ v _ => (hpull v).dressed.seq fun _ _ _ => Unloads.note _

/-- A statement that has been unloaded has delivered its variables. -/
lemma delivers_of_unload (h : (s.unload stmt d).run w = (.ok (), w')) :
    BindObject.Delivers d.binds.objects stmt d.arraySize w w' := by
  obtain ⟨_, v, hput, hrest⟩ := ok_of_bind h
  obtain ⟨-, rfl⟩ := Prod.mk.inj hput
  obtain ⟨_, u, hpull, hnote⟩ := ok_of_bind hrest
  obtain ⟨-, rfl⟩ := Prod.mk.inj hnote
  obtain ⟨h1, h2, h3⟩ := s.putData_aside { d with status := .executed } w
  exact (BindObject.delivers_of_exchangeAll (ok_of_dressed hpull)).congr h2.symm h1.symm h3.symm rfl

lemma ok_of_runNative {iters : Nat} (h : runNative stmt iters w = (some (), u)) : ∃ results memory l,
    Library.execute stmt iters w.memory w.library = (some (results, memory), l) ∧
      u = { w with library := l, memory := memory, log := w.log ++ results.map .hook } := by
  unfold runNative at h
  split at h
  · rename_i results memory l he
    exact ⟨results, memory, l, he, (Prod.mk.inj h).2.symm⟩
  · cases h

lemma error_of_runNative {iters : Nat} (h : runNative stmt iters w = (none, u)) : ∃ l,
    Library.execute stmt iters w.memory w.library = (none, l) ∧ u = { w with library := l } := by
  unfold runNative at h
  split at h
  · cases h
  · rename_i l he
    exact ⟨l, he, (Prod.mk.inj h).2.symm⟩

/-- A statement that has been loaded is executed natively, and if that goes well, it is unloaded. -/
lemma run_executePrepared {r : Except ClientError Unit} (hload : s.load.run w = (.ok (stmt, d), v))
    (h : s.executePrepared.run w = (r, w')) :
    (∃ u, runNative stmt d.arraySize v = (some (), u) ∧ (s.unload stmt d).run u = (r, w')) ∨
      ∃ u, runNative stmt d.arraySize v = (none, u) ∧ w'.library.executions = u.library.executions ∧
        ∃ e, r = .error e := by
  unfold executePrepared at h
  rw [run_bind, hload] at h
  dsimp only at h
  rw [run_bind, run_modifyGet] at h
  rcases hn : runNative stmt d.arraySize v with ⟨_ | x, u⟩ <;> rw [hn] at h
  · obtain ⟨hr, rfl⟩ := Prod.mk.inj h
    exact .inr ⟨u, rfl, rfl, _, hr.symm⟩
  · exact .inl ⟨u, rfl, h⟩

end Statement
end DbClient
