import DbClient.Proofs.Scope.Handles
import DbClient.Proofs.Quiet.Operations

/-! The exchange of data as steps: on the way into their buffers the variables of a statement change nothing but these
and actual lengths, and on the way out the variables are written. -/
namespace DbClient
open Act World

variable {S : Scope} {w : World} {id : Nat} {n : Node} {d : StatementData} {ty : ValueType}

/-- An object of a statement that a scope allows to work on. -/
structure BindObject.Allowed (o : BindObject) (S : Scope) (id : Nat) (n : Node) (d : StatementData) : Prop where
  node : S.node id
  keeps : n.Keeps d
  mem : o ∈ d.binds.objects

namespace BindObject
variable {o : BindObject}

/-! ### Into the buffers -/

namespace Allowed

lemma write (h : o.Allowed S id n d) (hl : w.Live id n) (offset : Nat) (bytes : List UInt8) :
    StepsWithin S w (w.writeBuffer o.buffer offset bytes) :=
  .work h.node hl (.fill offset bytes h.keeps (List.mem_map_of_mem h.mem))

lemma reportSize (h : o.Allowed S id n d) (hl : w.Live id n) (pos size : Nat) :
    Tells S w (o.reportSize n.native pos size) w :=
  Tells.call (.setDataSize n.native o.name pos size) (fun _ => rfl) honest_id (fun hs => hs) h.node hl rfl trivial

lemma askSize (h : o.Allowed S id n d) (hl : w.Live id n) (pos limit : Nat) :
    Tells S w (o.askSize n.native pos limit) w :=
  (Tells.call (.dataSize n.native o.name pos) (fun _ => rfl) honest_id (fun hs => hs) h.node hl rfl trivial).giving

lemma live_reportSize {x : Unit} {v : World} {pos size : Nat} (hl : w.Live id n)
    (hr : (o.reportSize n.native pos size).run w = (.ok x, v)) : v.Live id n :=
  ((o.quiet_reportSize ⟨id, n, hl, rfl⟩ pos size).rel hr).live ▸ hl

lemma live_askSize {x : Nat} {v : World} {pos limit : Nat} (hl : w.Live id n)
    (hr : (o.askSize n.native pos limit).run w = (.ok x, v)) : v.Live id n :=
  ((o.quiet_askSize ⟨id, n, hl, rfl⟩ pos limit).rel hr).live ▸ hl

/-- What is written into a buffer changes no node. -/
lemma live_write {buffer offset : Nat} {bytes : List UInt8} (hl : w.Live id n) :
    (w.writeBuffer buffer offset bytes).Live id n := hl

lemma live_setVar {x : Nat} {v : HostVar} (hl : w.Live id n) : (w.setVar x v).Live id n := hl

lemma pushCell (h : o.Allowed S id n d) (hl : w.Live id n) (x : Host ty) : Tells S w (o.pushCell ty x) w :=
  Tells.update_bind (h.write hl _ _) (Tells.note _ (.refl _))

lemma pushText (h : o.Allowed S id n d) (hl : w.Live id n) (size : Nat) (x : Host ty) :
    Tells S w (o.pushText n.native size ty x) w :=
  Tells.update_bind (h.write hl _ _) <|
    (h.reportSize (live_write hl) _ _).seq fun _ _ _ _ => Tells.note _ (.refl _)

lemma pushFrom (h : o.Allowed S id n d) (hl : w.Live id n) (i : Nat) (xs : List (Host ty)) :
    Tells S w (o.pushFrom n.native ty i xs) w := by
  induction xs generalizing w i with
  | nil => exact Tells.pure (.refl w) _
  | cons x rest ih =>
    refine Tells.get (Tells.update_bind (h.write hl _ _) ?_)
    dsimp only
    split
    · exact (h.reportSize (live_write hl) _ _).seq fun _ _ hr _ => ih (live_reportSize (live_write hl) hr) _
    · exact ih (live_write hl) _

theorem push (h : o.Allowed S id n d) (hl : w.Live id n) (arraySize : Nat) :
    Tells S w (o.push n.native arraySize) w := by
  apply Tells.get
  split
  · split
    · exact h.pushText hl _ _
    · exact Tells.pure (.refl w) _
  · split
    · exact h.pushCell hl _
    · exact Tells.pure (.refl w) _
  · split
    · exact (h.pushFrom hl _ _).seq fun _ _ _ _ => Tells.note _ (.refl _)
    · exact Tells.pure (.refl w) _
  · exact Tells.pure (.refl w) _

/-! ### Out of the buffers -/

lemma pullCell (h : S.var o.var) : Tells S w (o.pullCell ty) w := by
  apply Tells.get
  split
  · exact Tells.throw (.refl w) rfl
  · exact Tells.update_bind (.single (.write h _)) (Tells.note _ (.refl _))

lemma pullText (h : o.Allowed S id n d) (hv : S.var o.var) (hl : w.Live id n) (size : Nat) :
    Tells S w (o.pullText n.native size ty) w := by
  refine (h.askSize hl _ _).seq fun _ v _ _ => Tells.get ?_
  split
  · exact Tells.throw (.refl v) rfl
  · exact Tells.update_bind (.single (.write hv _)) (Tells.note _ (.refl _))

lemma pullFrom (h : o.Allowed S id n d) (hv : S.var o.var) (hl : w.Live id n) (xs : List (Host ty)) (i count : Nat) :
    Tells S w (o.pullFrom n.native ty xs i count) w := by
  induction count generalizing w xs i with
  | zero => exact Tells.pure (.refl w) _
  | succ count ih =>
    rw [pullFrom_succ]
    have hask : Tells S w (o.askLength n.native ty i) w := by
      unfold askLength
      split
      · exact h.askSize hl _ _
      · exact Tells.pure (.refl w) _
    refine hask.seq fun size v hr _ => Tells.get ?_
    have hlv : v.Live id n := by
      unfold askLength at hr
      split at hr
      · exact live_askSize hl hr
      · obtain ⟨-, rfl⟩ := Prod.mk.inj hr
        exact hl
    split
    · exact Tells.throw (.refl v) rfl
    · exact Tells.update_bind (.single (.write hv _)) (ih (live_setVar hlv) _ _)

theorem pull (h : o.Allowed S id n d) (hv : S.var o.var) (hl : w.Live id n) (arraySize : Nat) :
    Tells S w (o.pull n.native arraySize) w := by
  unfold BindObject.pull
  split
  · apply Tells.get
    split
    · exact h.pullText hv hl _
    · exact pullCell hv
    · exact (h.pullFrom hv hl _ _ _).seq fun _ _ _ _ => Tells.note _ (.refl _)
    · exact Tells.pure (.refl w) _
  · exact Tells.pure (.refl w) _

end Allowed

/-- An exchange of all objects tells what it does if that of each of them does. -/
lemma tells_exchangeAll {exchange : BindObject → Act Unit} {os : List BindObject} (hl : w.Live id n)
    (hq : ∀ o w, w.Live id n → Does Quiet (exchange o) w)
    (ht : ∀ o ∈ os, ∀ w, w.Live id n → Tells S w (exchange o) w) : Tells S w (exchangeAll exchange os) w := by
  induction os generalizing w with
  | nil => exact Tells.pure (.refl w) _
  | cons o rest ih =>
    have hfirst := (ht o List.mem_cons_self w hl).dressed (ClientError.source?_withBind o.name)
    exact hfirst.seq fun _ v hr _ => ih ((((hq o w hl).dressed).rel hr).live ▸ hl) fun p hp =>
      ht p (List.mem_cons_of_mem o hp)

end BindObject

namespace BindsHolder

lemma tells_push (hn : S.node id) (hl : w.Live id n) (hx : n.Keeps d) (arraySize : Nat) :
    Tells S w (d.binds.push n.native arraySize) w :=
  BindObject.tells_exchangeAll hl
    (fun o _ hl => (BindObject.quiet_loading n.native o).push ⟨id, n, hl, rfl⟩ arraySize)
    fun _ ho _ hl => BindObject.Allowed.push ⟨hn, hx, ho⟩ hl arraySize

lemma tells_pull (hn : S.node id) (hv : ∀ o ∈ d.binds.objects, S.var o.var) (hl : w.Live id n) (hx : n.Keeps d)
    (arraySize : Nat) : Tells S w (d.binds.pull n.native arraySize) w :=
  BindObject.tells_exchangeAll hl
    (fun o _ hl => (BindObject.quiet_unloading n.native arraySize o).pull ⟨id, n, hl, rfl⟩)
    fun o ho _ hl => BindObject.Allowed.pull ⟨hn, hx, ho⟩ (hv o ho) hl arraySize

end BindsHolder
end DbClient
