import DbClient.Proofs.Application.CascadeLaw
import DbClient.Proofs.Application.OwnershipLaw

/-! The law of cleaning up in any application: what is left of an environment, and what goes with its root.
A root is given back like any other handle, so its tree goes with the last of its wrappers. -/
namespace DbClient
namespace World
variable {w w' v : World} {id env : Nat} {n : Node} {roots ids : List Nat} {t : Terms}

/-- A cascade does not see the log, nor anything of an environment but its store. -/
lemma Cascade.congr (h : Cascade roots w w') (nodes : v.nodes = w'.nodes) (releases : v.releases = w'.releases)
    (library : v.library = w'.library) (stored : ∀ env a, v.stored? env a = w'.stored? env a) :
    Cascade roots w v := by
  have hlive : ∀ k m, v.Live k m ↔ w'.Live k m := fun k m => by rw [Live, nodes, Live]
  have hnative : ∀ x : Wrapper, x.native v = x.native w' := fun x => by
    rw [Wrapper.native, Wrapper.native, Wrapper.liveNode?, Wrapper.liveNode?, nodes]
  refine ⟨fun k => ?_, fun x k hx hb => (hnative x).trans (h.null x k hx hb), fun k m hm hk => ?_,
    fun env a k => ?_, releases.trans h.releases, ?_⟩
  · simp only [hlive]
    exact h.live k
  · rw [nodes]
    exact h.outside k m hm hk
  · rw [stored]
    exact h.stored env a k
  · have hcalls : v.calls = w'.calls := by rw [World.calls, World.calls, library]
    exact hcalls.trans h.calls

/-- The stores do not see that callbacks and guard of an environment go. -/
lemma stored?_cleared (w : World) (i env : Nat) (a : Address) :
    ((w.clearCallbacks i).modifyEnv i fun s => { s with sync := .unguarded }).stored? env a = w.stored? env a := by
  have hs : ((w.clearCallbacks i).modifyEnv i fun s => { s with sync := .unguarded }).store? env = w.store? env :=
    (store?_modifyEnv_of_eq (f := fun s => { s with sync := .unguarded }) (fun _ => rfl) i _ env).trans
      (store?_modifyEnv_of_eq (f := fun s => { s with callbacks := ∅ }) (fun _ => rfl) i w env)
  simp only [stored?_eq, hs]

lemma Forest.housed_drop (hw : w.Forest) (id : Nat) (he : w.Housed env) : (Wrapper.drop ⟨some id⟩ w).Housed env := by
  refine hw.drop_induction (P := fun v => v.Housed env) id he fun v j m _ hv hj _ => ?_
  rw [Housed, store?_retire hj.1]
  split
  · rw [Option.isSome_map]
    exact hv
  · exact hv

/-- The native handle that goes with a node, if the node owns it. -/
def estate (w : World) (id : Nat) : List (HandleKind × Address) :=
  ((w.nodes.get? id).map fun n => if n.owned then [(n.kind, n.native)] else []).getD []

lemma estate_of_live (hl : w.Live id n) : w.estate id = if n.owned then [(n.kind, n.native)] else [] := by
  rw [estate, hl.1]
  rfl

end World

open World

namespace Owns
variable {t : Terms} {w : World} {id : Nat} {n : Node} {ids : List Nat}

/-- A leaf that is released takes its native handle with it. -/
lemma destroyed_retire (hw : Owns t w) (ht : t.faults = false) (hf : w.Forest) (hl : w.Live id n) :
    (w.retire id).library.destroyed = w.library.destroyed ++ w.estate id := by
  rw [(retire_around hl.1 (hf.linked.parent_ne hl.1)).1, estate_of_live hl]
  by_cases ho : n.owned = true
  · rw [if_pos ho, if_pos ho]
    obtain ⟨hwhy, -⟩ | ⟨-, hd⟩ := Library.letGo_spec n.kind n.native w.library
    · rw [hw.sturdy ht, hw.alive hl] at hwhy
      simp at hwhy
    · exact hd.destroyed
  · rw [if_neg ho, if_neg ho, List.append_nil]

/-- Releases from the bottom up take the native handles of their nodes with them, in their order. -/
theorem destroyed_retireAll (hw : Owns t w) (ht : t.faults = false) (hf : w.Forest) (hb : w.BottomUp ids) :
    Owns t (retireAll ids w) ∧
      (retireAll ids w).library.destroyed = w.library.destroyed ++ ids.flatMap w.estate := by
  induction ids generalizing w with
  | nil => exact ⟨hw, by simp⟩
  | cons j ids ih =>
    obtain ⟨m, hm, hleaf, hf', hb'⟩ := hf.retire_first hb
    have hj := (List.nodup_cons.mp hb.nodup).1
    have hrest : ids.flatMap (w.retire j).estate = ids.flatMap w.estate := by
      refine List.flatMap_congr fun i hi => ?_
      have hne : j ≠ i := fun e => hj (e ▸ hi)
      rw [estate, estate, hf.get?_retire hm, if_neg hne]
      cases w.nodes.get? i <;> rfl
    obtain ⟨hown, hd⟩ := ih (hw.retire hf hm hleaf) hf' hb'
    rw [retireAll_cons]
    refine ⟨hown, ?_⟩
    rw [hd, hrest, hw.destroyed_retire ht hf hm, List.flatMap_cons, List.append_assoc]

/-- The last wrapper of a node takes the native handles of the whole tree with it, children first. -/
theorem destroyed_drop (hw : Owns t w) (ht : t.faults = false) (hf : w.Forest) (hl : w.Live id n)
    (hh : n.holders = 1) : Owns t (Wrapper.drop ⟨some id⟩ w) ∧
      (Wrapper.drop ⟨some id⟩ w).library.destroyed =
        w.library.destroyed ++ (w.postorder id).flatMap w.estate := by
  have hown : Owns t (w.modifyNode id Node.fewer) := hw.congr (fun k => map_get?_fewer (fun _ => rfl) id k w) rfl
  have hlive : (w.modifyNode id Node.fewer).Live id n.fewer := ⟨by rw [get?_fewer, if_pos rfl, hl.1]; rfl, hl.2⟩
  have hestate : (w.modifyNode id Node.fewer).estate = w.estate := by
    funext k
    rw [estate, map_get?_fewer fun _ => rfl]
    rfl
  have hforest := hf.fewer id
  obtain ⟨-, hpost, -, -⟩ := views_fewer id w
  rw [drop_eq hl.1, if_pos hh, hforest.release hlive]
  have hall := hown.destroyed_retireAll ht hforest (hforest.bottomUp hlive)
  rw [hestate, hpost] at hall
  rw [hpost]
  exact hall

end Owns

namespace Environment
variable {e : Environment} {w : World} {id : Nat} {n : Node}

lemma cleanup_of_null (h : e.root.isNull w = true) : e.cleanup w = (e, w) := by
  simp [cleanup, h]

/-- What a cleanup does while the root lives: the environment gives its wrapper of the root back, forgets
the callbacks and leaves the guarded mode. -/
lemma cleanup_of_live (hid : e.root.node = some id) (hl : w.Live id n) : e.cleanup w = (⟨e.env, ⟨none⟩⟩,
    (((Wrapper.drop ⟨some id⟩ w).clearCallbacks e.env).modifyEnv e.env fun s =>
      { s with sync := .unguarded }).note (.cleanedUp n.native)) := by
  have hroot : e.root = ⟨some id⟩ := congrArg Wrapper.mk hid
  have hnull : e.root.isNull w = false := Wrapper.isNull_eq_false.mpr ⟨id, n, hid, hl⟩
  simp only [cleanup, hnull, Wrapper.native_of_live hid hl, Bool.false_eq_true, if_false]
  rw [hroot]

end Environment

namespace Application

/-- What cleaning up an environment does to a world. -/
structure CleanupLaw (t : Terms) (e : Environment) (w : World) : Prop where
  /-- Without a root there is nothing to do. -/
  idle : e.root.isNull w = true → e.cleanup w = (e, w)
  /-- The environment is left without a root, and its state without callbacks and without a guard. -/
  emptied : e.root.isNull w = false → (e.cleanup w).1.root.node = none ∧
    ∃ s, (e.cleanup w).1.state? (e.cleanup w).2 = some s ∧ s.callbacks = ∅ ∧ s.sync = .unguarded
  /-- After that another cleanup and the end of the environment change nothing. -/
  once : e.root.isNull w = false → (e.cleanup w).1.cleanup (e.cleanup w).2 = e.cleanup w ∧
    (e.cleanup w).1.drop (e.cleanup w).2 = (e.cleanup w).2
  /-- The only wrapper of the root takes the tree below the root with it, however many wrappers there are of
  other nodes of the tree, -/
  whole : ∀ id n, e.root.node = some id → w.Live id n → n.holders = 1 → Cascade [id] w (e.cleanup w).2
  /-- and, if destruction is not made to fail, the native handles that the nodes of the tree own, children
  before parents; none of them is alive any longer. -/
  destroyed : t.foreign = false → t.faults = false → ∀ id n, e.root.node = some id → w.Live id n →
    n.holders = 1 → (e.cleanup w).2.library.destroyed =
      w.library.destroyed ++ (w.postorder id).flatMap w.estate ∧
    ∀ k m, w.Below id k → w.Live k m → m.owned = true → (e.cleanup w).2.library.isAlive m.native = false
  /-- Another wrapper of the root keeps the whole tree. -/
  kept : ∀ id n, e.root.node = some id → w.Live id n → n.holders ≠ 1 →
    (e.cleanup w).2.nodes = w.nodes.modify id Node.fewer ∧ (e.cleanup w).2.releases = w.releases ∧
    (e.cleanup w).2.library = w.library ∧
    ∀ env a, (e.cleanup w).2.stored? env a = w.stored? env a

variable {t : Terms} {a : Application} {e : Environment}

/-- The law of cleaning up holds for every environment at hand whenever an application is between two
operations. -/
theorem Reachable.cleanupLaw (h : Reachable t a) (he : a.Holds (.environment e)) :
    CleanupLaw t e a.world := by
  have hf := h.fit.sound.forest
  have hhoused : a.world.Housed e.env := by
    obtain ⟨i, hi, hp⟩ := he
    have hh := h.fit.housed i hi
    cases i with
    | environment e' =>
      obtain rfl : e = e' := by simpa [Item.parts] using hp
      exact hh
    | _ => simp [Item.parts] at hp
  refine {
    idle := fun hn => Environment.cleanup_of_null hn
    emptied := fun hn => ?_
    once := fun hn => ?_
    whole := fun id n hid hl hh => ?_
    destroyed := fun hfor hfau id n hid hl hh => ?_
    kept := fun id n hid hl hh => ?_ }
  · obtain ⟨id, n, hid, hl⟩ := Wrapper.isNull_eq_false.mp hn
    obtain ⟨s, hs⟩ := Option.isSome_iff_exists.mp (hf.housed_drop id hhoused)
    obtain ⟨s', hs', -⟩ := Option.map_eq_some_iff.mp hs
    rw [Environment.cleanup_of_live hid hl]
    refine ⟨rfl, { s' with callbacks := ∅, sync := .unguarded }, ?_, rfl, rfl⟩
    simp [Environment.state?, World.modifyEnv, World.clearCallbacks, World.note, World.record, hs']
  · obtain ⟨id, n, hid, hl⟩ := Wrapper.isNull_eq_false.mp hn
    rw [Environment.cleanup_of_live hid hl]
    exact ⟨rfl, rfl⟩
  · rw [Environment.cleanup_of_live hid hl]
    exact (hf.cascade_drop hl hh).congr rfl rfl rfl (stored?_cleared _ e.env)
  · obtain ⟨hown, hd⟩ := (h.owns hfor).destroyed_drop hfau hf hl hh
    rw [Environment.cleanup_of_live hid hl]
    refine ⟨hd, fun k m hb hk ho => (hown.coherent.gone m.native ?_).1⟩
    have hmem : (m.kind, m.native) ∈ (a.world.postorder id).flatMap a.world.estate :=
      List.mem_flatMap.mpr ⟨k, (hf.mem_postorder hl).mpr hb, by rw [estate_of_live hk, if_pos ho]; simp⟩
    rw [hd, List.map_append]
    exact List.mem_append_right _ (List.mem_map.mpr ⟨_, hmem, rfl⟩)
  · have hdrop : Wrapper.drop ⟨some id⟩ a.world = a.world.modifyNode id Node.fewer := by
      rw [drop_eq hl.1, if_neg hh]
    rw [Environment.cleanup_of_live hid hl, hdrop]
    exact ⟨rfl, rfl, rfl, stored?_cleared _ e.env⟩

/-- A root with a connection and a statement of it, each of them with a second wrapper, but the root with its
only one. -/
theorem cleanupLaw_of_copies :
    let a := play [.createEnvironment default,
      .environment ⟨0, ⟨some 0⟩⟩ (.connect (.ofPassword "db" "user" "word")),
      .connection ⟨0, ⟨some 1⟩⟩ .statement, .item (.connection ⟨0, ⟨some 1⟩⟩) .clone,
      .item (.statement ⟨0, ⟨0, ⟨some 1⟩⟩, ⟨some 2⟩⟩) .clone] start
    let e : Environment := ⟨0, ⟨some 0⟩⟩
    CleanupLaw ⟨false, false⟩ e a.world ∧ (a.wrappersOf 0, a.wrappersOf 1, a.wrappersOf 2) = (1, 3, 2) ∧
      (e.cleanup a.world).2.library.destroyed.map Prod.fst = [.statement, .connection, .environment] := by
  refine ⟨Reachable.cleanupLaw (runs_play ?_) (by decide +kernel), by decide +kernel, by decide +kernel⟩
  exact ⟨trivial, by decide +kernel, trivial, by decide +kernel, trivial, by decide +kernel, trivial,
    by decide +kernel, trivial, by decide +kernel, trivial⟩

/-- A copy of the root keeps its tree: the environment has been cleaned up and has no wrapper left, but both
the root and the connection below it are there, and nothing is destroyed. -/
theorem cleanup_spares_copied_root :
    let a := play [.createEnvironment default,
      .environment ⟨0, ⟨some 0⟩⟩ (.connect (.ofPassword "db" "user" "word")),
      .item (.environment ⟨0, ⟨some 0⟩⟩) .clone] start
    let e : Environment := ⟨0, ⟨some 0⟩⟩
    Reachable ⟨false, false⟩ a ∧ a.Holds (.environment e) ∧ e.root.isNull a.world = false ∧
      a.world.parent? 1 = some 0 ∧ (e.cleanup a.world).1.root.node = none ∧
      (Wrapper.mk (some 0)).isNull (e.cleanup a.world).2 = false ∧
      (Wrapper.mk (some 1)).isNull (e.cleanup a.world).2 = false ∧
      (e.cleanup a.world).2.library.destroyed = [] := by
  refine ⟨runs_play ?_, by decide +kernel, by decide +kernel, by decide +kernel, by decide +kernel,
    by decide +kernel, by decide +kernel, by decide +kernel⟩
  exact ⟨trivial, by decide +kernel, trivial, by decide +kernel, trivial, by decide +kernel, trivial⟩

end Application
end DbClient
