import DbClient.Proofs.Scope.Telling
import DbClient.Proofs.Moves.Opening

/-! The operations on wrappers as steps: how they are dropped, copied and released, and how handles come to be wrapped
when they are created. -/
namespace DbClient
open Act World

variable {α β : Type} {S : Scope} {o w w' : World} {id : Nat} {n : Node}

/-- A scope covers a node with all that comes to be below it. -/
structure Scope.Covers (S : Scope) (id : Nat) (w : World) : Prop where
  node : S.node id
  below : ∀ v, StepsWithin S w v → ∀ n c, v.Live id n → c ∈ n.children → S.node c

lemma Scope.Covers.onward (h : S.Covers id w) (hd : StepsWithin S w w') : S.Covers id w' :=
  ⟨h.node, fun v hv => h.below v (hd.trans hv)⟩

/-- A scope within which nodes may be changed and created and variables written at will. -/
structure Scope.Wide (S : Scope) : Prop where
  node : ∀ i, S.node i
  var : ∀ x, S.var x
  creates : S.creates

/-- The scope that allows everything. -/
def Scope.all : Scope where
  node _ := True
  count _ := True
  counted _ _ := trivial
  text _ := True
  var _ := True
  registry := True
  creates := True

lemma Scope.wide_all : all.Wide := ⟨fun _ => trivial, fun _ => trivial, trivial⟩

namespace Scope.Wide

lemma count (h : S.Wide) (i : Nat) : S.count i := S.counted i (h.node i)

lemma covers (h : S.Wide) (id : Nat) (w : World) : S.Covers id w := ⟨h.node id, fun _ _ _ c _ _ => h.node c⟩

end Scope.Wide

/-- A wrapper whose drop a scope allows: its node may lose a holder, and it may be released if it is the last. -/
def Wrapper.Droppable (S : Scope) (h : Wrapper) (w : World) : Prop :=
  ∀ id, h.node = some id → S.count id ∧ ∀ n, w.Live id n → n.holders = 1 → S.node id

namespace Wrapper
variable {h : Wrapper}

lemma droppable_of_node (hn : ∀ id, h.node = some id → S.node id) : h.Droppable S w := fun id hid =>
  ⟨S.counted id (hn id hid), fun _ _ _ => hn id hid⟩

lemma droppable_of_wide (hS : S.Wide) : h.Droppable S w := droppable_of_node fun id _ => hS.node id

end Wrapper

namespace StepsWithin

lemma drop {h : Wrapper} (hd : h.Droppable S w) : StepsWithin S w (h.drop w) := by
  obtain ⟨_ | id⟩ := h
  · exact refl w
  · obtain ⟨hc, hn⟩ := hd id rfl
    exact single (.drop hc hn)

lemma clone {h : Wrapper} (hc : ∀ id, h.node = some id → S.count id) : StepsWithin S w (h.clone w).2 := by
  unfold Wrapper.clone
  cases hl : h.liveNode? w with
  | none => exact refl w
  | some p =>
    obtain ⟨hid, hlive⟩ := Wrapper.liveNode?_eq_some.mp hl
    exact single (.acquire (hc p.1 hid) hlive)

/-- A release, of a node that may have been released before. -/
lemma release (hn : S.node id) : StepsWithin S w (w.release id).2 := by
  cases hg : w.nodes.get? id with
  | none =>
    simp only [World.release, World.releaseWithin, hg]
    exact refl w
  | some n =>
    by_cases hr : n.released = true
    · rw [release_of_released hg hr]
    · exact single (.release hn ⟨hg, Bool.eq_false_iff.mpr hr⟩)

lemma releaseEach {ids : List Nat} (hn : ∀ id ∈ ids, S.node id) : StepsWithin S w (Wrapper.releaseEach ids w).2 := by
  induction ids generalizing w with
  | nil => exact refl w
  | cons id ids ih =>
    exact (release (hn id List.mem_cons_self)).trans (ih fun j hj => hn j (List.mem_cons_of_mem id hj))

lemma releaseChildren {h : Wrapper} (p : Node → Bool)
    (hn : ∀ id n c, h.node = some id → w.Live id n → c ∈ n.children → S.node c) :
    StepsWithin S w (h.releaseChildren p w).2 := by
  unfold Wrapper.releaseChildren
  cases hl : h.liveNode? w with
  | none => exact refl w
  | some q =>
    obtain ⟨hid, hlive⟩ := Wrapper.liveNode?_eq_some.mp hl
    exact releaseEach fun c hc => hn q.1 q.2 c hid hlive (List.mem_filter.mp hc).1

lemma removeCallback (hr : S.registry) (env : Nat) (key : Address) (w : World) :
    StepsWithin S w (w.removeCallback env key).2 := by
  unfold World.removeCallback
  split
  · exact refl w
  · exact single (.enroll (f := fun e => { e with callbacks := e.callbacks.erase key }) hr (fun _ => rfl) env)

lemma setCallback (hr : S.registry) (env : Nat) (key : Address) (c : Option Callback) (w : World) :
    StepsWithin S w (w.setCallback env key c) := by
  unfold World.setCallback
  split
  · exact refl w
  · split
    · rename_i c
      exact single (.enroll (f := fun e => { e with callbacks := e.callbacks.put key c }) hr (fun _ => rfl) env)
    · exact removeCallback hr env key w

lemma notifyFailover (env : Nat) (conn : Address) (event : FailoverEvent) (w : World) :
    StepsWithin S w (w.notifyFailover env conn event).2 := by
  unfold World.notifyFailover
  split
  · exact single (.log _)
  · exact refl w

end StepsWithin

namespace Act.Tells

/-- An operation that begins by asking for the native handle of a wrapper. -/
lemma live {h : Wrapper} {f : Address → Act β} (hd : StepsWithin S o w)
    (hf : ∀ id n, h.node = some id → w.Live id n → Tells S o (f n.native) w) : Tells S o (h.live >>= f) w := by
  unfold Wrapper.live
  rw [bind_assoc]
  apply Tells.get
  split
  · exact Tells.throw_bind hd rfl
  · rename_i hnull
    obtain ⟨id, n, hid, hl⟩ := Wrapper.isNull_eq_false.mp (Bool.eq_false_iff.mpr hnull)
    rw [pure_bind, Wrapper.native_of_live hid hl]
    exact hf id n hid hl

/-- An operation that begins by asking for the data of a statement. -/
lemma data {s : Statement} {f : StatementData → Act β} (hd : StepsWithin S o w)
    (hf : ∀ id n d, s.handle.node = some id → w.Live id n → n.Keeps d → Tells S o (f d) w) :
    Tells S o (s.data >>= f) w := by
  unfold Statement.data
  rw [bind_assoc]
  apply Tells.get
  split
  · rename_i d hx
    obtain ⟨id, n, hid, hl, hx⟩ := Statement.data?_eq_some.mp hx
    rw [pure_bind]
    exact hf id n d hid hl hx
  · exact Tells.throw_bind hd rfl

/-- An operation that begins by asking for the data beside a known node. -/
lemma dataOf {s : Statement} {f : StatementData → Act β} (hd : StepsWithin S o w) (hid : s.handle.node = some id)
    (hl : w.Live id n) (hf : ∀ d, n.Keeps d → Tells S o (f d) w) : Tells S o (s.data >>= f) w :=
  data hd fun id' n' d hid' hl' hx => by
    obtain rfl := Option.some.inj (hid.symm.trans hid')
    obtain rfl := hl.unique hl'
    exact hf d hx

/-- An operation that goes on only from a stage. -/
lemma requireStatus {d : StatementData} {needed : Status} {operation : String} {f : Unit → Act β}
    (hd : StepsWithin S o w) (hf : needed.rank ≤ d.status.rank → Tells S o (f ()) w) :
    Tells S o (Statement.requireStatus d needed operation >>= f) w := by
  unfold Statement.requireStatus
  split
  · exact Tells.throw_bind hd rfl
  · rename_i h
    rw [pure_bind]
    exact hf (Nat.le_of_not_lt h)

/-- A call with the handle of a live node that may be worked on. -/
lemma call {f : Library → Option α × Library} {dress : ClientError → ClientError} (i : Invocation)
    (hi : ∀ l, Invocation.gave (f l) = i.run l) (hd : Honest dress) (hs : ¬i.Seeks) (hn : S.node id) (hl : w.Live id n)
    (hh : i.handle = n.native) (hsteady : i.Steady w.library) : Tells S w (Act.require dress f) w :=
  require i hi hd hs (.work hn hl (.call i hh hsteady))

end Act.Tells

lemma Act.honest_id : Honest fun e => e := fun _ => rfl

/-! ### New handles -/

/-- A handle that was created a moment ago is wrapped without fail. -/
theorem Wrapper.run_wrap_created {native : Address} {kind : HandleKind} {parent : Option Wrapper}
    {q : Option Nat} {l : Library} (env : Nat) (onRelease : ReleaseAction) (hw : Standing w) (hq : w.LeadsTo parent q)
    (hc : Library.create kind (w.nativeOf q) w.library = (some native, l)) :
    (wrap env native kind parent true onRelease).run { w with library := l } = (.ok ⟨some w.nodes.next⟩,
      World.grow (Node.wrapping env native kind q true onRelease) { w with library := l }) ∧
        w.stored? env native = none := by
  have hu : w.stored? env native = none := hw.owns.stranger hw.forest (Library.created hc) env
  have hv := hw.forest.ofLibrary l
  have hnull : native.isNull = false := by
    have hfresh := (Library.created hc).fresh
    simp [Address.isNull, hfresh]
  obtain ⟨r, v, hrun, hcases⟩ := wrap_cases hv env native kind parent true onRelease
  rw [hrun]
  obtain ⟨e, -, -, hno⟩ | ⟨i, m, hi, -⟩ | ⟨q', -, hq', rfl, rfl⟩ := hcases
  · obtain hno | ⟨-, hno⟩ | hno := hno
    · cases hno.symm.trans hnull
    · rw [show World.stored? { w with library := l } env native = none from hu] at hno
      cases hno
    · exact absurd hq (hno q)
  · cases hu.symm.trans hi
  · obtain rfl : q' = q := by
      cases parent with
      | none => exact hq'.trans hq.symm
      | some p =>
        obtain ⟨i, m, hi, -, rfl⟩ := hq'
        obtain ⟨j, k, hj, -, rfl⟩ := hq
        exact hi.symm.trans hj
    exact ⟨rfl, hu⟩

/-- The same for a handle that is adopted. -/
lemma Wrapper.run_adopt_created {native : Address} {kind : HandleKind} {parent : Wrapper}
    {q : Option Nat} {l : Library} (env : Nat) (onRelease : ReleaseAction) (hw : Standing w)
    (hq : w.LeadsTo (some parent) q) (hc : Library.create kind (w.nativeOf q) w.library = (some native, l)) :
    (adopt env native kind parent onRelease).run { w with library := l } = (.ok ⟨some w.nodes.next⟩,
      World.grow (Node.wrapping env native kind q true onRelease) { w with library := l }) ∧
        w.stored? env native = none := by
  obtain ⟨hrun, hu⟩ := run_wrap_created env onRelease hw hq hc
  refine ⟨?_, hu⟩
  rw [adopt, run_tryCatch, hrun]

end DbClient
