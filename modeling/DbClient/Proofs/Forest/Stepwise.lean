import DbClient.Proofs.Forest.Sound

/-! Releases as rows of steps. What holds across each step of a release holds across the release of any tree, in a
forest or not. -/
namespace DbClient
namespace World

/-- A relation that holds across each step of a release. -/
structure Releasing (R : World → World → Prop) : Prop where
  mark : ∀ id w, R w (w.markReleased id)
  cut : ∀ id w, R w (w.modifyNode id Node.cut)
  parent : ∀ id w, R w (w.leaveParent id)
  store : ∀ id w, R w (w.leaveStore id)
  action : ∀ id w, R w (w.runReleaseAction id)
  native : ∀ id w, R w (w.leaveNative id)

namespace Releasing
variable {R : World → World → Prop} [Std.Refl R] [IsTrans World R]

theorem releaseWithin (h : Releasing R) (fuel id : Nat) (w : World) : R w (w.releaseWithin fuel id).2 := by
  induction fuel generalizing id w with
  | zero => exact refl_of R w
  | succ fuel ih =>
    have hchildren : ∀ (cs : List Nat) v, R v (cs.foldl (fun w child =>
        (World.releaseWithin fuel child (w.modifyNode child fun n => { n with parent := none })).2) v) := by
      intro cs
      induction cs with
      | nil => exact refl_of R
      | cons c rest ihc =>
        intro v
        have hchild : R v (World.releaseWithin fuel c (v.modifyNode c Node.cut)).2 :=
          trans_of R (h.cut c v) (ih c _)
        exact trans_of R hchild (ihc _)
    unfold World.releaseWithin
    split
    · exact refl_of R w
    · split
      · exact refl_of R w
      · rename_i n _ _
        have hbelow := trans_of R (h.mark id w) (hchildren n.children _)
        have hlinks := trans_of R (trans_of R hbelow (h.parent id _)) (h.store id _)
        exact trans_of R (trans_of R hlinks (h.action id _)) (h.native id _)

lemma release (h : Releasing R) (id : Nat) (w : World) : R w (w.release id).2 := h.releaseWithin _ id w

omit [Std.Refl R] in
/-- The release of a leaf takes the same steps. -/
lemma retire (h : Releasing R) (id : Nat) (w : World) : R w (w.retire id) :=
  trans_of R (trans_of R (trans_of R (trans_of R (h.mark id w) (h.parent id _)) (h.store id _)) (h.action id _))
    (h.native id _)

/-- The last wrapper of a node takes it along. -/
lemma drop (h : Releasing R) (hf : ∀ id w, R w (w.modifyNode id Node.fewer)) (wr : Wrapper) (w : World) :
    R w (wr.drop w) := by
  unfold Wrapper.drop
  split
  · exact refl_of R w
  · rename_i id _
    dsimp only
    split
    · exact trans_of R (hf id w) (h.release id _)
    · exact hf id w

lemma releaseEach (h : Releasing R) (ids : List Nat) (w : World) : R w (Wrapper.releaseEach ids w).2 := by
  induction ids generalizing w with
  | nil => exact refl_of R w
  | cons id rest ih => exact trans_of R (h.release id w) (ih _)

lemma releaseChildren (h : Releasing R) (wr : Wrapper) (p : Node → Bool) (w : World) :
    R w (wr.releaseChildren p w).2 := by
  unfold Wrapper.releaseChildren
  split
  · exact refl_of R w
  · exact h.releaseEach _ w

end Releasing
end World
end DbClient
