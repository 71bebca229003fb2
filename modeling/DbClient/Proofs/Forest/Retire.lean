import DbClient.Handle.Release
import DbClient.Proofs.Assoc

/-! The release of one node without children. It commutes with edits of the links of other nodes, so
that a cascade, which cuts links on the way down and releases on the way up, can be taken apart into
single releases. -/
namespace DbClient

/-- The node without one of its children. -/
def Node.dropChild (c : Nat) (n : Node) : Node := { n with children := n.children.filter (· ≠ c) }

/-- The node without its parent link. -/
def Node.cut (n : Node) : Node := { n with parent := none }

/-- The node after its release: marked, without its links, its action and what the action took. -/
def Node.retired (n : Node) : Node :=
  { n.spent with released := true, children := [], parent := none }

/-- The buffers that a node frees when it is released. -/
def Node.freed (n : Node) : List Nat :=
  match n.onRelease, n.extra with
  | .freeBinds, some (.statement d) => d.binds.buffers
  | _, _ => []

/-- The steps of the release of a node: its action, if it has one, and then its destruction, if it owns
its native handle. -/
def Node.steps (id : Nat) (n : Node) : List ReleaseStep :=
  (if n.onRelease = .nothing then [] else [.action id]) ++ if n.owned then [.destroy id] else []

/-- The library after it has been asked to destroy a handle, whether it could or not. -/
def Library.letGo (kind : HandleKind) (h : Address) (l : Library) : Library :=
  match destroy kind h l with
  | (some (), l) => l
  | (none, l) => l.lastError.2

namespace World
variable {w : World} {j k : Nat} {f : Node → Node}

/-- The parent link of a node. -/
def parent? (w : World) (id : Nat) : Option Nat := (w.nodes.get? id).bind Node.parent

/-- Releases a node as if it had no children. -/
def retire (id : Nat) (w : World) : World :=
  leaveNative id (runReleaseAction id (leaveStore id (leaveParent id (markReleased id w))))

@[simp] theorem nodes_modifyNode (id : Nat) (f : Node → Node) (w : World) :
    (w.modifyNode id f).nodes = w.nodes.modify id f := rfl

@[simp] theorem library_modifyNode (id : Nat) (f : Node → Node) (w : World) :
    (w.modifyNode id f).library = w.library := rfl

@[simp] theorem envs_modifyNode (id : Nat) (f : Node → Node) (w : World) :
    (w.modifyNode id f).envs = w.envs := rfl

@[simp] theorem stored?_modifyNode (id : Nat) (f : Node → Node) (w : World) (env : Nat) (h : Address) :
    (w.modifyNode id f).stored? env h = w.stored? env h := rfl

theorem modifyNode_comm (w : World) (j k : Nat) (f g : Node → Node) (h : j = k → ∀ n, f (g n) = g (f n)) :
    (w.modifyNode k g).modifyNode j f = (w.modifyNode j f).modifyNode k g := by
  simp only [modifyNode, Table.modify_comm _ _ _ _ _ h]

lemma get?_modifyNode_of_ne (h : j ≠ k) (f : Node → Node) (w : World) :
    (w.modifyNode k f).nodes.get? j = w.nodes.get? j := by
  simp [Ne.symm h]

theorem leaveParent_eq (id : Nat) (w : World) : w.leaveParent id =
    match w.parent? id with
    | none => w
    | some p => (w.modifyNode id Node.cut).modifyNode p (Node.dropChild id) := rfl

lemma markReleased_modifyNode (h : j ≠ k) (f : Node → Node) (w : World) :
    markReleased j (w.modifyNode k f) = (markReleased j w).modifyNode k f :=
  modifyNode_comm _ _ _ _ _ fun e => absurd e h

/-- Leaving the parent commutes with an edit of another node that lets children go as they did. -/
lemma leaveParent_modifyNode (h : j ≠ k) (hf : ∀ n, f (n.dropChild j) = (f n).dropChild j) (w : World) :
    leaveParent j (w.modifyNode k f) = (leaveParent j w).modifyNode k f := by
  have hp : (w.modifyNode k f).parent? j = w.parent? j := by simp [parent?, Ne.symm h]
  rw [leaveParent_eq, leaveParent_eq, hp]
  cases w.parent? j with
  | none => rfl
  | some p =>
    dsimp only
    rw [modifyNode_comm _ j k _ _ fun e => absurd e h]
    exact modifyNode_comm _ _ _ _ _ fun _ n => (hf n).symm

lemma leaveStore_modifyNode (h : j ≠ k) (f : Node → Node) (w : World) :
    leaveStore j (w.modifyNode k f) = (leaveStore j w).modifyNode k f := by
  simp only [leaveStore, get?_modifyNode_of_ne h, stored?_modifyNode]
  cases w.nodes.get? j with
  | none => rfl
  | some n =>
    dsimp only
    rw [apply_ite (modifyNode k f)]
    rfl

lemma performAction_modifyNode (n : Node) (k : Nat) (f : Node → Node) (w : World) :
    performAction n (w.modifyNode k f) = (performAction n w).modifyNode k f := by
  unfold performAction
  cases n.onRelease with
  | nothing => rfl
  | unregisterCallbacks =>
    dsimp only [envs_modifyNode]
    split <;> rfl
  | freeBinds =>
    dsimp only
    split <;> rfl
  | report label take => rfl

lemma runReleaseAction_modifyNode (h : j ≠ k) (f : Node → Node) (w : World) :
    runReleaseAction j (w.modifyNode k f) = (runReleaseAction j w).modifyNode k f := by
  simp only [runReleaseAction, get?_modifyNode_of_ne h]
  cases w.nodes.get? j with
  | none => rfl
  | some n =>
    rw [modifyNode_comm _ k j _ _ fun e => absurd e.symm h]
    dsimp only
    split
    · exact congrArg (modifyNode j Node.spent) (performAction_modifyNode n k f w)
    · exact congrArg (modifyNode j Node.spent) (performAction_modifyNode n k f (w.trace (.action j)))

lemma leaveNative_modifyNode (h : j ≠ k) (f : Node → Node) (w : World) :
    leaveNative j (w.modifyNode k f) = (leaveNative j w).modifyNode k f := by
  simp only [leaveNative, get?_modifyNode_of_ne h]
  cases w.nodes.get? j with
  | none => rfl
  | some n =>
    dsimp only [trace, library_modifyNode]
    rcases Library.destroy n.kind n.native w.library with ⟨_ | _, l⟩ <;> cases n.owned <;> rfl

/-- The release of a node commutes with an edit of another one that lets children go as it did. -/
theorem retire_modifyNode (h : j ≠ k) (hf : ∀ n, f (n.dropChild j) = (f n).dropChild j) (w : World) :
    retire j (w.modifyNode k f) = (retire j w).modifyNode k f := by
  simp only [retire, markReleased_modifyNode h, leaveParent_modifyNode h hf, leaveStore_modifyNode h,
    runReleaseAction_modifyNode h, leaveNative_modifyNode h]

/-! ### What the release of one node changes -/

@[simp] lemma nodes_leaveStore (id : Nat) (w : World) : (w.leaveStore id).nodes = w.nodes := by
  unfold leaveStore
  split
  · rfl
  · split <;> rfl

@[simp] lemma nodes_performAction (n : Node) (w : World) : (performAction n w).nodes = w.nodes := by
  unfold performAction
  split
  · rfl
  · dsimp only
    split <;> rfl
  · split <;> rfl
  · rfl

@[simp] lemma nodes_leaveNative (id : Nat) (w : World) : (w.leaveNative id).nodes = w.nodes := by
  unfold leaveNative
  split
  · rfl
  · split
    · dsimp only [trace]
      split <;> rfl
    · rfl

lemma runReleaseAction_of_get? {n : Node} (h : w.nodes.get? j = some n) : runReleaseAction j w =
    (performAction n (if n.onRelease = .nothing then w else w.trace (.action j))).modifyNode j
      Node.spent := by
  simp only [runReleaseAction, h]

lemma get?_runReleaseAction {n : Node} (h : w.nodes.get? j = some n) (i : Nat) :
    (runReleaseAction j w).nodes.get? i =
      if j = i then (w.nodes.get? i).map Node.spent else w.nodes.get? i := by
  rw [runReleaseAction_of_get? h]
  simp only [nodes_modifyNode, nodes_performAction, apply_ite World.nodes, trace, ite_self,
    Table.get?_modify]

lemma get?_leaveParent {n : Node} (h : w.nodes.get? j = some n) (hp : n.parent ≠ some j) (i : Nat) :
    (leaveParent j w).nodes.get? i = if j = i then some n.cut
      else (w.nodes.get? i).map fun m => if n.parent = some i then m.dropChild j else m := by
  have hn : w.parent? j = n.parent := by simp [parent?, h]
  rw [leaveParent_eq, hn]
  cases he : n.parent with
  | none =>
    dsimp only
    by_cases hi : j = i
    · subst hi
      simp [h, Node.cut, ← he]
    · simp [hi]
  | some p =>
    have hne : p ≠ j := fun e => hp (e ▸ he)
    simp only [nodes_modifyNode, Table.get?_modify, Option.some.injEq]
    by_cases hi : j = i
    · subst hi
      simp [h, hne]
    · by_cases hpi : p = i <;> simp [hi, hpi]

/-- What the release of one node makes of it, and of its parent. -/
theorem get?_retire {n : Node} (h : w.nodes.get? j = some n) (hp : n.parent ≠ some j) (i : Nat) :
    (retire j w).nodes.get? i = if j = i then some n.retired
      else (w.nodes.get? i).map fun m => if n.parent = some i then m.dropChild j else m := by
  have h1 : (markReleased j w).nodes.get? j = some { n with released := true, children := [] } := by
    simp [markReleased, h]
  have h2 := get?_leaveParent h1 hp
  have h3 : (leaveStore j (leaveParent j (markReleased j w))).nodes.get? j =
      some (Node.cut { n with released := true, children := [] }) := by
    rw [nodes_leaveStore, h2, if_pos rfl]
  rw [retire, nodes_leaveNative, get?_runReleaseAction h3, nodes_leaveStore, h2]
  by_cases hi : j = i
  · subst hi
    simp only [if_true, Option.map_some]
    rfl
  · simp [hi, markReleased]

lemma parent?_retire {n : Node} (h : w.nodes.get? j = some n) (hp : n.parent ≠ some j) (i : Nat) :
    (retire j w).parent? i = if j = i then none else w.parent? i := by
  rw [parent?, get?_retire h hp]
  split
  · rfl
  · cases hi : w.nodes.get? i with
    | none => simp [parent?, hi]
    | some m =>
      simp only [parent?, hi, Option.map_some, Option.bind_some]
      split <;> rfl

lemma lawful_retire (h : w.nodes.Lawful) (j : Nat) : (retire j w).nodes.Lawful := by
  have hp : (leaveParent j (markReleased j w)).nodes.Lawful := by
    rw [leaveParent_eq]
    split
    · exact h.modify _ _
    · exact ((h.modify _ _).modify _ _).modify _ _
  rw [retire, nodes_leaveNative, runReleaseAction]
  split
  · rw [nodes_leaveStore]
    exact hp
  · simp only [nodes_modifyNode, nodes_performAction, apply_ite World.nodes, trace, ite_self,
      nodes_leaveStore]
    exact hp.modify _ _

/-! ### The stores -/

/-- The store of an environment. -/
def store? (w : World) (env : Nat) : Option (Assoc Address Nat) := (w.envs.get? env).map EnvState.store

lemma stored?_eq (w : World) (env : Nat) (h : Address) :
    w.stored? env h = (w.store? env).bind fun s => s.get? h := by
  unfold stored? store?
  cases w.envs.get? env <;> rfl

lemma storeLength_eq (w : World) (env : Nat) : w.storeLength env = ((w.store? env).map Assoc.size).getD 0 := by
  unfold storeLength store?
  cases w.envs.get? env <;> rfl

@[simp] lemma store?_modifyNode (id : Nat) (f : Node → Node) (w : World) (env : Nat) :
    (w.modifyNode id f).store? env = w.store? env := rfl

lemma store?_modifyEnv (id : Nat) (f : EnvState → EnvState) (w : World) (env : Nat) :
    (w.modifyEnv id f).store? env =
      if id = env then (w.envs.get? env).map fun e => (f e).store else w.store? env := by
  unfold store? modifyEnv
  rw [Table.get?_modify]
  split <;> simp [Function.comp_def]

lemma store?_modifyEnv_of_eq {f : EnvState → EnvState} (hf : ∀ e, (f e).store = e.store) (id : Nat)
    (w : World) (env : Nat) : (w.modifyEnv id f).store? env = w.store? env := by
  rw [store?_modifyEnv]
  simp only [hf, ite_eq_right_iff]
  intro _
  rfl

@[simp] lemma store?_performAction (n : Node) (w : World) (env : Nat) :
    (performAction n w).store? env = w.store? env := by
  unfold performAction
  split
  · rfl
  · dsimp only
    split
    · exact store?_modifyEnv_of_eq (f := fun e => { e with callbacks := e.callbacks.erase n.native })
        (fun _ => rfl) n.env w env
    · rfl
  · split <;> rfl
  · rfl

@[simp] lemma store?_runReleaseAction (id : Nat) (w : World) (env : Nat) :
    (runReleaseAction id w).store? env = w.store? env := by
  unfold runReleaseAction
  split
  · rfl
  · dsimp only
    rw [store?_modifyNode, store?_performAction]
    split <;> rfl

@[simp] lemma store?_leaveNative (id : Nat) (w : World) (env : Nat) :
    (leaveNative id w).store? env = w.store? env := by
  unfold leaveNative
  split
  · rfl
  · split
    · dsimp only [trace]
      split <;> rfl
    · rfl

@[simp] lemma store?_leaveParent (id : Nat) (w : World) (env : Nat) :
    (leaveParent id w).store? env = w.store? env := by
  rw [leaveParent_eq]
  split <;> rfl

/-- A node that is released leaves the store that knows it. -/
theorem store?_retire {n : Node} (h : w.nodes.get? j = some n) (env : Nat) : (retire j w).store? env =
    if n.env = env ∧ w.stored? env n.native = some j then (w.store? env).map fun s => s.erase n.native
    else w.store? env := by
  have hn : ∃ m, (leaveParent j (markReleased j w)).nodes.get? j = some m ∧ m.env = n.env ∧
      m.native = n.native := by
    rw [leaveParent_eq]
    split
    · exact ⟨{ n with released := true, children := [] }, by simp [markReleased, h], rfl, rfl⟩
    · rename_i p _
      by_cases hp : p = j <;> simp [markReleased, h, hp, Node.cut, Node.dropChild]
  obtain ⟨m, hm, henv, hnat⟩ := hn
  have hs : ∀ env, (leaveParent j (markReleased j w)).store? env = w.store? env := fun env =>
    store?_leaveParent j _ env
  rw [retire, store?_leaveNative, store?_runReleaseAction, leaveStore]
  simp only [hm, henv, hnat, stored?_eq, hs]
  split
  · rename_i hk
    rw [store?_modifyEnv]
    by_cases he : n.env = env
    · subst he
      rw [if_pos rfl, if_pos ⟨rfl, hk⟩, ← hs]
      simp [store?, Function.comp_def]
    · simp [he, hs]
  · rename_i hk
    have hne : ¬(n.env = env ∧ (w.store? env).bind (fun s => s.get? n.native) = some j) := fun hc =>
      hk (hc.1 ▸ hc.2)
    rw [if_neg hne, hs]

lemma lawful_modifyEnv (h : w.envs.Lawful) (id : Nat) (f : EnvState → EnvState) :
    (w.modifyEnv id f).envs.Lawful := h.modify _ _

lemma envs_lawful_retire (h : w.envs.Lawful) (j : Nat) : (retire j w).envs.Lawful := by
  have h1 : (leaveParent j (markReleased j w)).envs.Lawful := by
    rw [leaveParent_eq]
    split <;> exact h
  have h2 : (leaveStore j (leaveParent j (markReleased j w))).envs.Lawful := by
    unfold leaveStore
    split
    · exact h1
    · split
      · exact lawful_modifyEnv h1 _ _
      · exact h1
  have h3 : ∀ n v, v.envs.Lawful → (performAction n v).envs.Lawful := by
    intro n v hv
    unfold performAction
    split
    · exact hv
    · dsimp only
      split
      · exact lawful_modifyEnv hv _ _
      · exact hv
    · split <;> exact hv
    · exact hv
  have h4 : (runReleaseAction j (leaveStore j (leaveParent j (markReleased j w)))).envs.Lawful := by
    unfold runReleaseAction
    split
    · exact h2
    · dsimp only
      apply h3 _ _
      split <;> exact h2
  unfold retire leaveNative
  split
  · exact h4
  · split
    · dsimp only [trace]
      split <;> exact h4
    · exact h4

/-! ### What the release of one node does around the forest -/

lemma leaveParent_around (id : Nat) (w : World) : (leaveParent id w).library = w.library ∧
    (leaveParent id w).memory = w.memory ∧ (leaveParent id w).releases = w.releases := by
  rw [leaveParent_eq]
  split <;> exact ⟨rfl, rfl, rfl⟩

lemma leaveStore_around (id : Nat) (w : World) : (leaveStore id w).library = w.library ∧
    (leaveStore id w).memory = w.memory ∧ (leaveStore id w).releases = w.releases := by
  unfold leaveStore
  split
  · exact ⟨rfl, rfl, rfl⟩
  · split <;> exact ⟨rfl, rfl, rfl⟩

lemma performAction_around (n : Node) (w : World) : (performAction n w).library = w.library ∧
    (performAction n w).memory = n.freed.foldl Table.erase w.memory ∧
    (performAction n w).releases = w.releases := by
  unfold performAction Node.freed
  cases n.onRelease with
  | nothing => exact ⟨rfl, rfl, rfl⟩
  | unregisterCallbacks =>
    dsimp only
    split <;> exact ⟨rfl, rfl, rfl⟩
  | freeBinds =>
    dsimp only
    rcases n.extra with _ | (_ | _ | _) <;> exact ⟨rfl, rfl, rfl⟩
  | report label take => exact ⟨rfl, rfl, rfl⟩

lemma runReleaseAction_around {n : Node} (h : w.nodes.get? j = some n) :
    (runReleaseAction j w).library = w.library ∧
    (runReleaseAction j w).memory = n.freed.foldl Table.erase w.memory ∧
    (runReleaseAction j w).releases = w.releases ++ if n.onRelease = .nothing then [] else [.action j] := by
  rw [runReleaseAction_of_get? h]
  split
  · exact ⟨(performAction_around n w).1, (performAction_around n w).2.1,
      (performAction_around n w).2.2.trans (List.append_nil _).symm⟩
  · exact performAction_around n (w.trace (.action j))

lemma leaveNative_around {n : Node} (h : w.nodes.get? j = some n) :
    (leaveNative j w).library = (if n.owned then w.library.letGo n.kind n.native else w.library) ∧
    (leaveNative j w).memory = w.memory ∧
    (leaveNative j w).releases = w.releases ++ if n.owned then [.destroy j] else [] := by
  simp only [leaveNative, h, Library.letGo]
  cases n.owned with
  | false => exact ⟨rfl, rfl, (List.append_nil _).symm⟩
  | true =>
    dsimp only [trace]
    rcases Library.destroy n.kind n.native w.library with ⟨_ | _, l⟩ <;> exact ⟨rfl, rfl, rfl⟩

/-- The release of a node asks the library to destroy what the node owns, frees its buffers and adds its
steps to those of all releases. -/
theorem retire_around {n : Node} (h : w.nodes.get? j = some n) (hp : n.parent ≠ some j) :
    (retire j w).library = (if n.owned then w.library.letGo n.kind n.native else w.library) ∧
    (retire j w).memory = n.freed.foldl Table.erase w.memory ∧
    (retire j w).releases = w.releases ++ n.steps j := by
  have h1 : (markReleased j w).nodes.get? j = some { n with released := true, children := [] } := by
    simp [markReleased, h]
  have h2 : (leaveStore j (leaveParent j (markReleased j w))).nodes.get? j =
      some (Node.cut { n with released := true, children := [] }) := by
    rw [nodes_leaveStore, get?_leaveParent h1 hp, if_pos rfl]
  obtain ⟨hl, hm, hr⟩ := leaveStore_around j (leaveParent j (markReleased j w))
  obtain ⟨hl', hm', hr'⟩ := leaveParent_around j (markReleased j w)
  rw [hl'] at hl
  rw [hm'] at hm
  rw [hr'] at hr
  have h3 := get?_runReleaseAction h2 j
  rw [if_pos rfl, h2, Option.map_some] at h3
  obtain ⟨ha, hb, hc⟩ := leaveNative_around h3
  obtain ⟨pa, pb, pc⟩ := runReleaseAction_around h2
  rw [retire, ha, hb, hc, pa, pb, pc, hl, hm, hr, List.append_assoc]
  exact ⟨rfl, rfl, rfl⟩

end World
end DbClient
