import DbClient.Environment
import DbClient.Proofs.Act
import DbClient.Proofs.Alike.Library
import DbClient.Proofs.Transfer.Guarded

/-! Worlds that differ in data only. What an operation gives, and what it does to handles, nodes and environments, does
not depend on the values of variables or on the bytes in buffers. -/
namespace DbClient
open Act

namespace World
variable {α β : Type} {w w' w'' : World}

/-- Two worlds that differ in data only: in the values of variables, in the bytes of buffers, in what the native library
knows of them, and in the log. -/
structure Alike (w w' : World) : Prop where
  library : w.library.Alike w'.library
  memory : w'.memory.next = w.memory.next
  vars : w'.vars.next = w.vars.next
  sorts : ∀ i, (w'.vars.get? i).map HostVar.sort = (w.vars.get? i).map HostVar.sort
  envs : w'.envs = w.envs
  nodes : w'.nodes = w.nodes
  releases : w'.releases = w.releases

/-- A step that does not see data. -/
def Blind (f : World → α × World) : Prop := ∀ ⦃w w'⦄, w.Alike w' → (f w').1 = (f w).1 ∧ (f w).2.Alike (f w').2

namespace Alike

lemma refl (w : World) : Alike w w := ⟨.refl _, rfl, rfl, fun _ => rfl, rfl, rfl, rfl⟩

lemma symm (h : w.Alike w') : w'.Alike w :=
  ⟨h.library.symm, h.memory.symm, h.vars.symm, fun i => (h.sorts i).symm, h.envs.symm, h.nodes.symm, h.releases.symm⟩

lemma trans (h : w.Alike w') (h' : w'.Alike w'') : w.Alike w'' :=
  ⟨h.library.trans h'.library, h'.memory.trans h.memory, h'.vars.trans h.vars,
    fun i => (h'.sorts i).trans (h.sorts i), h'.envs.trans h.envs, h'.nodes.trans h.nodes,
    h'.releases.trans h.releases⟩

lemma ofLibrary {l l' : Library} (h : w.Alike w') (hl : l.Alike l') :
    Alike { w with library := l } { w' with library := l' } := { h with library := hl }

/-- The log does not matter. -/
lemma record (h : w.Alike w') (e e' : Event) : (w.record e).Alike (w'.record e') := { h with }

lemma note (h : w.Alike w') (n n' : Notice) : (w.note n).Alike (w'.note n') := h.record _ _

lemma trace (h : w.Alike w') (s : ReleaseStep) : (w.trace s).Alike (w'.trace s) :=
  { h with releases := congrArg (· ++ [s]) h.releases }

lemma modifyNode (h : w.Alike w') (id : Nat) (f : Node → Node) : (w.modifyNode id f).Alike (w'.modifyNode id f) :=
  { h with nodes := congrArg (fun t : Table Node => t.modify id f) h.nodes }

lemma modifyEnv (h : w.Alike w') (id : Nat) (f : EnvState → EnvState) :
    (w.modifyEnv id f).Alike (w'.modifyEnv id f) :=
  { h with envs := congrArg (fun t : Table EnvState => t.modify id f) h.envs }

lemma freeBuffers (h : w.Alike w') (buffers : List Nat) : (w.freeBuffers buffers).Alike (w'.freeBuffers buffers) := by
  have hnext : ∀ (bs : List Nat) (m : Memory), (bs.foldl Table.erase m).next = m.next := by
    intro bs
    induction bs with
    | nil => exact fun _ => rfl
    | cons b rest ih => exact fun m => ih (m.erase b)
  exact { h with memory := (hnext buffers _).trans (h.memory.trans (hnext buffers _).symm) }

lemma foldl {f : World → β → World} (hf : ∀ w w' x, w.Alike w' → (f w x).Alike (f w' x)) (xs : List β)
    (h : w.Alike w') : (xs.foldl f w).Alike (xs.foldl f w') := by
  induction xs generalizing w w' with
  | nil => exact h
  | cons x rest ih => exact ih (hf w w' x h)

/-! ### Lookups -/

lemma stored? (h : w.Alike w') (env : Nat) (native : Address) : w'.stored? env native = w.stored? env native := by
  rw [World.stored?, World.stored?, h.envs]

lemma callback? (h : w.Alike w') (env : Nat) (key : Address) : w'.callback? env key = w.callback? env key := by
  rw [World.callback?, World.callback?, h.envs]

lemma liveNode? (h : w.Alike w') (x : Wrapper) : x.liveNode? w' = x.liveNode? w := by
  rw [Wrapper.liveNode?, Wrapper.liveNode?, h.nodes]

lemma kind (h : w.Alike w') (x : Wrapper) : x.kind w' = x.kind w := by
  rw [Wrapper.kind, Wrapper.kind, Wrapper.anyNode?, Wrapper.anyNode?, h.nodes]

lemma isNull (h : w.Alike w') (x : Wrapper) : x.isNull w' = x.isNull w := by
  rw [Wrapper.isNull, Wrapper.isNull, h.liveNode?]

lemma native (h : w.Alike w') (x : Wrapper) : x.native w' = x.native w := by
  rw [Wrapper.native, Wrapper.native, h.liveNode?]

lemma data? (h : w.Alike w') (s : Statement) : s.data? w' = s.data? w := by
  rw [Statement.data?, Statement.data?, Wrapper.extra?, Wrapper.extra?, h.liveNode?]

/-! ### Releases -/

lemma leaveParent (h : w.Alike w') (id : Nat) : (World.leaveParent id w).Alike (World.leaveParent id w') := by
  unfold World.leaveParent
  rw [h.nodes]
  split
  · exact h
  · exact (h.modifyNode _ _).modifyNode _ _

lemma leaveStore (h : w.Alike w') (id : Nat) : (World.leaveStore id w).Alike (World.leaveStore id w') := by
  unfold World.leaveStore
  rw [h.nodes]
  split
  · exact h
  · rw [h.stored?]
    split
    · exact h.modifyEnv _ _
    · exact h

lemma performAction (h : w.Alike w') (n : Node) : (World.performAction n w).Alike (World.performAction n w') := by
  unfold World.performAction
  split
  · exact h
  · dsimp only
    rw [h.envs]
    split
    · exact (h.modifyEnv _ _).note _ _
    · exact h
  · split
    · exact (h.note _ _).freeBuffers _
    · exact h
  · exact h.record _ _

lemma runReleaseAction (h : w.Alike w') (id : Nat) :
    (World.runReleaseAction id w).Alike (World.runReleaseAction id w') := by
  unfold World.runReleaseAction
  rw [h.nodes]
  split
  · exact h
  · rename_i n _
    have htrace : Alike (if n.onRelease = .nothing then w else w.trace (.action id))
        (if n.onRelease = .nothing then w' else w'.trace (.action id)) := by
      split
      · exact h
      · exact h.trace _
    exact (htrace.performAction n).modifyNode id _

lemma leaveNative (h : w.Alike w') (id : Nat) : (World.leaveNative id w).Alike (World.leaveNative id w') := by
  unfold World.leaveNative
  rw [h.nodes]
  split
  · exact h
  · rename_i n _
    split
    · have htrace := h.trace (.destroy id)
      obtain ⟨h1, h2⟩ := Library.blind_destroy n.kind n.native htrace.library
      dsimp only
      generalize Library.destroy n.kind n.native (w.trace (.destroy id)).library = p at h1 h2
      generalize Library.destroy n.kind n.native (w'.trace (.destroy id)).library = p' at h1 h2
      obtain ⟨x, l⟩ := p
      obtain ⟨x', l'⟩ := p'
      obtain rfl : x' = x := h1
      cases x' with
      | some _ => exact (htrace.ofLibrary h2).note _ _
      | none => exact (htrace.ofLibrary (Library.blind_lastError h2).2).note _ _
    · exact h.note _ _

end Alike

lemma blind_releaseWithin (fuel id : Nat) : Blind (releaseWithin fuel id) := by
  induction fuel generalizing id with
  | zero => exact fun _ _ h => ⟨rfl, h⟩
  | succ fuel ih =>
    intro w w' h
    unfold releaseWithin
    rw [h.nodes]
    split
    · exact ⟨rfl, h⟩
    · rename_i n _
      split
      · exact ⟨rfl, h⟩
      · have hmark : (w.markReleased id).Alike (w'.markReleased id) := h.modifyNode _ _
        have hchildren := hmark.foldl (f := fun w child =>
          (releaseWithin fuel child (w.modifyNode child fun n => { n with parent := none })).2)
          (fun w w' child hw => (ih child (hw.modifyNode child _)).2) n.children
        exact ⟨rfl, (((hchildren.leaveParent id).leaveStore id).runReleaseAction id).leaveNative id⟩

lemma blind_release (id : Nat) : Blind (release id) := by
  intro w w' h
  unfold release
  rw [h.nodes]
  exact blind_releaseWithin _ id h

lemma blind_takeExtra (id : Nat) (ty : ExtraType) : Blind (takeExtra id ty) := by
  intro w w' h
  unfold takeExtra
  rw [h.nodes]
  split
  · split
    · exact ⟨rfl, h.modifyNode _ _⟩
    · exact ⟨rfl, h⟩
  · exact ⟨rfl, h⟩

end World
end DbClient
