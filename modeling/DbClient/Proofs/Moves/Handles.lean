import DbClient.Proofs.Moves.Basic

/-! The operations on wrappers as paths of moves. -/
namespace DbClient
open Act World

/-- The nodes that a wrapper holds: one, or none when it is empty. -/
def Wrapper.points (h : Wrapper) : Multiset Nat := h.node.elim 0 fun id => {id}

/-- A path that ends with the same nodes held, from a sound world. -/
def Course (t : Terms) (hs : Multiset Nat) (w w' : World) : Prop := Sound hs w → Path t (hs, w) (hs, w')

/-- What is held after an operation whose result holds something. -/
def gained {α : Type} (out : α → Multiset Nat) (hs : Multiset Nat) : Except ClientError α → Multiset Nat
  | .ok x => out x + hs
  | .error _ => hs

/-- An operation is a path from what is held before it to what its result holds beside the rest; only the
rest is held when it fails. -/
def Act.Takes {α : Type} (t : Terms) (held rest : Multiset Nat) (out : α → Multiset Nat) (a : Act α) (w : World) :
    Prop := Sound held w → Path t (held, w) (gained out rest (a.run w).1, (a.run w).2)

variable {α β : Type} {t : Terms} {hs : Multiset Nat} {w w' w'' : World} {id : Nat} {n : Node}

lemma Move.path {hs' : Multiset Nat} (h : Move t hs w hs' w') : Path t (hs, w) (hs', w') :=
  Relation.ReflTransGen.single h

/-- A move after which one more node is held. -/
lemma Move.gains (h : Move t hs w (id ::ₘ hs) w') : Path t (hs, w) ({id} + hs, w') :=
  (Multiset.singleton_add id hs).symm ▸ h.path

namespace Course

@[refl] lemma refl (w : World) : Course t hs w w := fun _ => Relation.ReflTransGen.refl

lemma trans (h : Course t hs w w') (h' : Course t hs w' w'') : Course t hs w w'' := fun hw =>
  Relation.ReflTransGen.trans (h hw) (h' (Path.sound (h hw) hw))

instance : Std.Refl (Course t hs) := ⟨refl⟩

instance : IsTrans World (Course t hs) := ⟨fun _ _ _ => trans⟩

lemma sound (h : Course t hs w w') (hw : Sound hs w) : Sound hs w' := Path.sound (h hw) hw

lemma move (h : Move t hs w hs w') : Course t hs w w' := fun _ => h.path

lemma quiet (h : Quiet w w') : Course t hs w w' := move (.quiet h)

/-- A quiet operation is a course. -/
lemma ofQuiet {a : Act α} (h : Does Quiet a w) : Does (Course t hs) a w := h.mono fun _ => quiet

/-- A release, of a node that may have been released before. -/
lemma release (id : Nat) (w : World) : Course t hs w (w.release id).2 := by
  cases hn : w.nodes.get? id with
  | none =>
    simp only [World.release, World.releaseWithin, hn]
    rfl
  | some n =>
    by_cases hr : n.released = true
    · rw [release_of_released hn hr]
    · exact move (.release ⟨hn, Bool.eq_false_iff.mpr hr⟩)

lemma releaseEach (ids : List Nat) (w : World) : Course t hs w (Wrapper.releaseEach ids w).2 := by
  induction ids generalizing w with
  | nil => rfl
  | cons id ids ih => exact (release id w).trans (ih _)

lemma releaseChildren (h : Wrapper) (p : Node → Bool) (w : World) :
    Course t hs w (h.releaseChildren p w).2 := by
  unfold Wrapper.releaseChildren
  split
  · rfl
  · exact releaseEach _ w

end Course

/-! ### Operations whose results hold nodes -/

namespace Act.Takes
variable {held rest : Multiset Nat} {out : α → Multiset Nat} {out' : β → Multiset Nat}
  {a : Act α} {f : α → Act β}

theorem bind (ha : Takes t held rest out a w)
    (hf : ∀ x w', a.run w = (.ok x, w') → Sound (out x + rest) w' →
      Takes t (out x + rest) rest out' (f x) w') : Takes t held rest out' (a >>= f) w := by
  intro hw
  have hp := ha hw
  rw [run_bind]
  rcases hr : a.run w with ⟨e | x, w'⟩
  · rw [hr] at hp
    exact hp
  · rw [hr] at hp
    have hs := Path.sound hp hw
    exact Relation.ReflTransGen.trans hp (hf x w' hr hs hs)

/-- An operation that begins with a course. -/
theorem bind_course (ha : Does (Course t rest) a w)
    (hf : ∀ x w', a.run w = (.ok x, w') → Sound rest w' → Takes t rest rest out' (f x) w') :
    Takes t rest rest out' (a >>= f) w := by
  have hnothing : Takes t rest rest (fun _ => 0) a w := by
    intro hw
    have hp := ha hw
    rcases hr : a.run w with ⟨e | x, w'⟩
    · rw [hr] at hp
      exact hp
    · rw [hr] at hp
      change Path t (rest, w) (0 + rest, w')
      rw [Multiset.zero_add]
      exact hp
  refine hnothing.bind fun x w' hr hs => ?_
  rw [Multiset.zero_add] at hs ⊢
  exact hf x w' hr hs

lemma pure (x : α) : Takes t (out x + rest) rest out (Pure.pure x) w := fun _ => Relation.ReflTransGen.refl

/-- A result that holds nothing. -/
lemma pure_none (x : α) (hx : out x = 0) : Takes t rest rest out (Pure.pure x) w := fun _ => by
  change Path t (rest, w) (out x + rest, w)
  rw [hx, Multiset.zero_add]
  exact Relation.ReflTransGen.refl

lemma live {h : Wrapper} {f : Address → Act β}
    (hf : ∀ id n, h.node = some id → w.Live id n → Takes t rest rest out' (f n.native) w) :
    Takes t rest rest out' (h.live >>= f) w := by
  unfold Wrapper.live
  rw [bind_assoc]
  change Takes t rest rest out' ((if h.isNull w then _ else _) >>= f) w
  split
  · exact fun _ => Relation.ReflTransGen.refl
  · rename_i hnull
    obtain ⟨id, n, hn, hl⟩ := Wrapper.isNull_eq_false.mp (Bool.eq_false_iff.mpr hnull)
    rw [pure_bind, Wrapper.native_of_live hn hl]
    exact hf id n hn hl

lemma get {f : World → Act β} (hf : Takes t held rest out' (f w) w) :
    Takes t held rest out' (MonadState.get >>= f) w := hf

/-- A notice in the log changes nothing. -/
lemma note (n : Notice) {f : Unit → Act β} (hf : Takes t held rest out' (f ()) (w.note n)) :
    Takes t held rest out' (Act.note n >>= f) w := fun hw => by
  have hq : Quiet w (w.note n) := Quiet.of_eq rfl rfl rfl rfl rfl
  have hm : Path t (held, w) (held, w.note n) := (Move.quiet hq).path
  exact Relation.ReflTransGen.trans hm (hf (Path.sound hm hw))

end Act.Takes

namespace Wrapper

/-- To drop a wrapper is one move, or none if it is empty. -/
lemma path_drop (h : Wrapper) (w : World) : Path t (h.points + hs, w) (hs, h.drop w) := by
  obtain ⟨_ | id⟩ := h
  · exact (Multiset.zero_add hs).symm ▸ Relation.ReflTransGen.refl
  · exact (Multiset.singleton_add id hs).symm ▸ (Move.drop id).path

lemma path_clone (h : Wrapper) (w : World) : Path t (hs, w) ((h.clone w).1.points + hs, (h.clone w).2) := by
  unfold clone
  cases hl : h.liveNode? w with
  | none => exact (Multiset.zero_add hs).symm ▸ Relation.ReflTransGen.refl
  | some p =>
    obtain ⟨id, n⟩ := p
    exact (Move.acquire (liveNode?_eq_some.mp hl).2).gains

lemma path_findChild (h : Wrapper) (p : Node → Bool) (hw : Sound hs w) :
    Path t (hs, w) (((h.findChild p w).1.elim 0 points) + hs, (h.findChild p w).2) := by
  unfold findChild
  cases hl : h.liveNode? w with
  | none => exact (Multiset.zero_add hs).symm ▸ Relation.ReflTransGen.refl
  | some q =>
    obtain ⟨id, n⟩ := q
    dsimp only
    cases hf : n.children.find? fun c => (w.nodes.get? c).any p with
    | none => exact (Multiset.zero_add hs).symm ▸ Relation.ReflTransGen.refl
    | some c =>
      obtain ⟨-, m, hm, -⟩ := hw.forest.child (liveNode?_eq_some.mp hl).2.1 (List.mem_of_find?_eq_some hf)
      exact (Move.acquire hm).gains

/-- The extra information of a node is replaced; only a new statement brings data of its own. -/
lemma course_setExtra (h : Wrapper) (e : Extra)
    (he : ∀ id n d, h.node = some id → w.Live id n → e = .statement d → d = .fresh ∧ n.owned = true) :
    Does (Course t hs) (h.setExtra e) w := by
  unfold setExtra
  apply Does.get
  cases hl : h.liveNode? w with
  | none => exact Does.throw _
  | some q =>
    obtain ⟨id, n⟩ := q
    obtain ⟨hid, hn⟩ := liveNode?_eq_some.mp hl
    exact Course.move (.keep (e := some e) hn fun d hd => he id n d hid hn (Option.some.inj hd))

lemma course_takeExtra (h : Wrapper) (ty : ExtraType) (w : World) :
    Course t hs w (h.takeExtra ty w).2 := by
  unfold takeExtra
  cases hl : h.liveNode? w with
  | none => rfl
  | some q =>
    obtain ⟨id, n⟩ := q
    obtain ⟨-, hn⟩ := liveNode?_eq_some.mp hl
    dsimp only [World.takeExtra]
    rw [hn.1, Option.bind_some]
    cases hx : n.extra with
    | none => rfl
    | some e =>
      dsimp only
      split
      · rename_i hty
        have hbuf : n.buffers = [] := by
          unfold Node.buffers
          rw [hx]
          cases e with
          | number => rfl
          | text => rfl
          | statement d => cases ty <;> cases hty
        have hm : Move t hs w hs ((w.modifyNode id fun n => { n with extra := none }).freeBuffers n.buffers) :=
          .keep hn (by simp)
        rw [hbuf] at hm
        exact Course.move hm
      · rfl

/-- The children that satisfy a condition go with their trees, one after the other. -/
lemma releaseChildren_eq {h : Wrapper} (hw : w.Forest) (hid : h.node = some id) (hl : w.Live id n)
    (p : Node → Bool) :
    h.releaseChildren p w = ((n.children.filter fun c => (w.nodes.get? c).any p).length,
        World.retireAll ((n.children.filter fun c => (w.nodes.get? c).any p).flatMap w.postorder) w) ∧
      w.BottomUp ((n.children.filter fun c => (w.nodes.get? c).any p).flatMap w.postorder) := by
  have hnodup : (n.children.filter fun c => (w.nodes.get? c).any p).Nodup := (hw.nodup_children hl.1).filter _
  have hchild : ∀ c ∈ n.children.filter fun c => (w.nodes.get? c).any p, w.parent? c = some id := fun c hc =>
    hw.down id n c hl.1 (List.mem_of_mem_filter hc)
  refine ⟨?_, hw.bottomUp_siblings hnodup hchild⟩
  unfold releaseChildren
  rw [liveNode?_eq_some.mpr ⟨hid, hl⟩]
  exact hw.releaseEach hnodup hchild

end Wrapper

/-- Work that is undone if it fails, with what is held for it. -/
lemma Act.Takes.undoing {held : Multiset Nat} {sweep : World → World} {a : Act α}
    (hsweep : ∀ w, Path t (held + hs, w) (hs, sweep w)) (ha : Does (Course t (held + hs)) a w) :
    Takes t (held + hs) hs (fun _ => held) (Act.undoing sweep a) w := by
  intro hw
  have hp := ha hw
  rw [Act.undoing, run_tryCatch]
  rcases hr : a.run w with ⟨e | x, w'⟩
  · rw [hr] at hp
    exact Relation.ReflTransGen.trans hp (hsweep w')
  · rw [hr] at hp
    exact hp

end DbClient
