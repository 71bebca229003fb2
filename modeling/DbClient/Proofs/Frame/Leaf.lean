import DbClient.Proofs.Ownership.Advance

/-! Creation that is undone. A new leaf of the forest that is given up again leaves all handles, all nodes and all
callbacks as they were, but for the callback that was kept under the number of the new handle. -/
namespace DbClient

lemma Node.dropChild_eq_self {n : Node} {c : Nat} (h : c ∉ n.children) : n.dropChild c = n := by
  have hfilter : n.children.filter (· ≠ c) = n.children :=
    List.filter_eq_self.mpr fun d hd => decide_eq_true fun e => h (e ▸ hd)
  rw [dropChild, hfilter]

/-- A parent that gets a child and loses it is what it was. -/
lemma Node.dropChild_addChild {n : Node} {c : Nat} (h : c ∉ n.children) : (n.addChild c).dropChild c = n := by
  have hfilter : (n.children ++ [c]).filter (· ≠ c) = n.children := by
    have hold : n.children.filter (· ≠ c) = n.children :=
      List.filter_eq_self.mpr fun d hd => decide_eq_true fun e => h (e ▸ hd)
    rw [List.filter_append, hold]
    simp
  rw [dropChild, addChild, hfilter]

namespace World
variable {w w' w'' v : World} {node : Node} {env env' id : Nat} {a key : Address} {f : Node → Node}

/-! ### Callbacks -/

/-- The entry of the registry of an environment under a key. -/
def enrolled? (w : World) (env : Nat) (key : Address) : Option Callback :=
  (w.envs.get? env).bind fun e => e.callbacks.get? key

/-- Under all keys but the null handle callbacks are looked up in the registry. -/
lemma callback?_eq (w : World) (env : Nat) (key : Address) :
    w.callback? env key = if key.isNull then none else w.enrolled? env key := rfl

lemma enrolled?_congr (h : w'.envs = w.envs) (env : Nat) (key : Address) :
    w'.enrolled? env key = w.enrolled? env key := by
  rw [enrolled?, enrolled?, h]

@[simp] lemma enrolled?_modifyNode (id : Nat) (f : Node → Node) (w : World) (env : Nat) (key : Address) :
    (w.modifyNode id f).enrolled? env key = w.enrolled? env key := rfl

lemma enrolled?_modifyEnv {f : EnvState → EnvState} (hf : ∀ e, (f e).callbacks = e.callbacks) (env' env : Nat)
    (key : Address) (w : World) : (w.modifyEnv env' f).enrolled? env key = w.enrolled? env key := by
  simp only [enrolled?, modifyEnv, Table.get?_modify]
  split
  · cases w.envs.get? env with
    | none => rfl
    | some e => simp [hf]
  · rfl

lemma callback?_modifyEnv {f : EnvState → EnvState} (hf : ∀ e, (f e).callbacks = e.callbacks) (env' env : Nat)
    (key : Address) (w : World) : (w.modifyEnv env' f).callback? env key = w.callback? env key := by
  rw [callback?_eq, callback?_eq, enrolled?_modifyEnv hf]

/-- What is registered after the callback of one key has been erased. -/
lemma enrolled?_erasing (env' env : Nat) (a key : Address) (w : World) :
    (w.modifyEnv env' fun e => { e with callbacks := e.callbacks.erase a }).enrolled? env key =
      if env' = env ∧ a = key then none else w.enrolled? env key := by
  simp only [enrolled?, modifyEnv, Table.get?_modify]
  by_cases he : env' = env
  · subst he
    cases w.envs.get? env' with
    | none => simp
    | some e => by_cases ha : a = key <;> simp [ha]
  · simp [he]

lemma callback?_erasing (env' env : Nat) (a key : Address) (w : World) :
    (w.modifyEnv env' fun e => { e with callbacks := e.callbacks.erase a }).callback? env key =
      if env' = env ∧ a = key then none else w.callback? env key := by
  rw [callback?_eq, callback?_eq, enrolled?_erasing]
  split_ifs <;> rfl

lemma removeCallback_of_none (h : w.callback? env a = none) : w.removeCallback env a = (false, w) := by
  rw [removeCallback, h]

lemma callback?_removeCallback (env' env : Nat) (a key : Address) (w : World) :
    (w.removeCallback env' a).2.callback? env key = if env' = env ∧ a = key then none else w.callback? env key := by
  unfold removeCallback
  split
  · rename_i hnone
    split
    · rename_i he
      rw [← he.1, ← he.2]
      exact hnone
    · rfl
  · exact callback?_erasing env' env a key w

lemma removeCallback_around (env : Nat) (a : Address) (w : World) :
    (w.removeCallback env a).2.library = w.library ∧ (w.removeCallback env a).2.nodes = w.nodes ∧
      ∀ i, (w.removeCallback env a).2.store? i = w.store? i := by
  unfold removeCallback
  split
  · exact ⟨rfl, rfl, fun _ => rfl⟩
  · refine ⟨rfl, rfl, fun i => ?_⟩
    exact store?_modifyEnv_of_eq (f := fun e => { e with callbacks := e.callbacks.erase a }) (fun _ => rfl) env w i

/-- Only one release action takes a callback away. -/
lemma enrolled?_performAction (n : Node) (w : World) (env : Nat) (key : Address) :
    (performAction n w).enrolled? env key =
      if n.onRelease = .unregisterCallbacks ∧ n.env = env ∧ n.native = key then none else w.enrolled? env key := by
  unfold performAction
  split
  · rename_i h
    simp [h]
  · rename_i h
    simp only [h, true_and]
    split
    · exact (enrolled?_congr rfl env key).trans (enrolled?_erasing n.env env n.native key w)
    · rename_i hunknown
      split
      · rename_i he
        obtain ⟨rfl, rfl⟩ := he
        rw [enrolled?]
        cases he : w.envs.get? n.env with
        | none => rfl
        | some e => simpa [he, Assoc.contains] using hunknown
      · rfl
  · rename_i h
    simp only [h, reduceCtorEq, false_and, if_false]
    split <;> exact enrolled?_congr rfl env key
  · rename_i h
    simp only [h, reduceCtorEq, false_and, if_false]
    exact enrolled?_congr rfl env key

theorem enrolled?_retire {n : Node} (h : w.nodes.get? id = some n) (hp : n.parent ≠ some id) (env : Nat)
    (key : Address) : (retire id w).enrolled? env key =
      if n.onRelease = .unregisterCallbacks ∧ n.env = env ∧ n.native = key then none else w.enrolled? env key := by
  have hparent : ∀ u, ((leaveParent id u).envs : Table EnvState) = u.envs := fun u => by
    rw [leaveParent_eq]
    split <;> rfl
  have hstore : ∀ u, (leaveStore id u).enrolled? env key = u.enrolled? env key := fun u => by
    unfold leaveStore
    split
    · rfl
    · rename_i m _
      split
      · exact enrolled?_modifyEnv (f := fun e => { e with store := e.store.erase m.native }) (fun _ => rfl) _ _ _ _
      · rfl
  have hnative : ∀ u, (leaveNative id u).envs = u.envs := fun u => by
    unfold leaveNative
    split
    · rfl
    · split
      · dsimp only
        split <;> rfl
      · rfl
  have hn : (leaveStore id (leaveParent id (markReleased id w))).nodes.get? id =
      some { n with released := true, children := [], parent := none } := by
    have hm : (markReleased id w).nodes.get? id = some { n with released := true, children := [] } := by
      rw [markReleased, nodes_modifyNode, Table.get?_modify, if_pos rfl, h]
      rfl
    rw [nodes_leaveStore, get?_leaveParent hm hp, if_pos rfl]
    rfl
  rw [retire, enrolled?_congr (hnative _), runReleaseAction_of_get? hn, enrolled?_modifyNode, enrolled?_performAction]
  have hbefore : ∀ u : World, (if n.onRelease = .nothing then u else u.trace (.action id)).enrolled? env key =
      u.enrolled? env key := fun u => by split <;> rfl
  refine if_congr Iff.rfl rfl ((hbefore _).trans ?_)
  rw [hstore, enrolled?_congr (hparent _)]
  rfl

theorem callback?_retire {n : Node} (h : w.nodes.get? id = some n) (hp : n.parent ≠ some id) (env : Nat)
    (key : Address) : (retire id w).callback? env key =
      if n.onRelease = .unregisterCallbacks ∧ n.env = env ∧ n.native = key then none else w.callback? env key := by
  rw [callback?_eq, callback?_eq, enrolled?_retire h hp]
  split_ifs <;> rfl

/-! ### Restoration -/

/-- All native handles, all nodes that are not released and all callbacks are what they were. -/
structure Restored (w w' : World) : Prop where
  alive : ∀ a, w'.library.handles.get? a = w.library.handles.get? a
  live : ∀ id n, w'.Live id n ↔ w.Live id n
  stored : ∀ env a, w'.stored? env a = w.stored? env a
  callbacks : ∀ env key, w'.callback? env key = w.callback? env key

namespace Restored

@[refl] lemma refl (w : World) : Restored w w := ⟨fun _ => rfl, fun _ _ => Iff.rfl, fun _ _ => rfl, fun _ _ => rfl⟩

/-- Only the native library has changed, and the same handles are alive in it. -/
lemma ofLibrary {l : Library} (h : ∀ a, l.handles.get? a = w.library.handles.get? a) :
    Restored w { w with library := l } := ⟨h, fun _ _ => Iff.rfl, fun _ _ => rfl, fun _ _ => rfl⟩

end Restored

/-! ### New leaves -/

/-- A new leaf that fits, with one wrapper, and with a native handle of its own that is none of those that are alive. -/
structure NewLeaf (node : Node) (w : World) : Prop extends Fits node w where
  holders : node.holders = 1
  owned : node.owned = true
  new : w.library.handles.get? node.native = none

/-- A world has come to have one more leaf, which owns a native handle that is new as well. -/
structure AddsHandle (node : Node) (w w' : World) : Prop where
  nodes : ∀ i, w'.nodes.get? i = (w.grow node).nodes.get? i
  table : w'.nodes.Lawful
  stores : ∀ env, w'.store? env = (w.grow node).store? env
  envs : w'.envs.Lawful
  callbacks : ∀ env key, w'.callback? env key = w.callback? env key
  handles : ∀ a, w'.library.handles.get? a = if node.native = a then some node.kind else w.library.handles.get? a
  listed : w'.library.listed node.native = []
  sturdy : w'.library.failures.get? .destroy = none

namespace AddsHandle

lemma forest (h : AddsHandle node w w') (hf : w.Forest) (hfits : Fits node w) : w'.Forest :=
  (hf.grow hfits).congr h.table h.envs (fun i => by rw [h.nodes]) h.stores

lemma live (h : AddsHandle node w w') (hf : w.Forest) (hfits : Fits node w) : w'.Live w.nodes.next node :=
  ⟨(h.nodes _).trans (hf.get?_grow_next hfits), hfits.fresh⟩

/-- The leaf can be changed where that does not matter. -/
lemma edit (h : AddsHandle node w w') (hf : w.Forest) (hfits : Fits node w) (hnative : (f node).native = node.native)
    (hkind : (f node).kind = node.kind) (hparent : (f node).parent = node.parent) (henv : (f node).env = node.env) :
    AddsHandle (f node) w (w'.modifyNode w.nodes.next f) where
  nodes i := by
    have hne := hf.parent_ne_next hfits
    rw [nodes_modifyNode, Table.get?_modify, h.nodes, get?_grow hne, get?_grow (hparent ▸ hne)]
    by_cases hi : w.nodes.next = i
    · simp [hi]
    · simp [hi, hparent]
  table := h.table.modify _ _
  stores env := by
    rw [store?_modifyNode, h.stores, store?_grow, store?_grow, henv, hnative]
  envs := h.envs
  callbacks env key := h.callbacks env key
  handles a := by
    rw [hnative, hkind]
    exact h.handles a
  listed := hnative ▸ h.listed
  sturdy := h.sturdy

/-- Another node can be changed, in which its children do not matter. -/
lemma aside (h : AddsHandle node w w') (hf : w.Forest) (hfits : Fits node w) {n : Node} (hid : w.nodes.get? id = some n)
    (hadd : ∀ c n, f (n.addChild c) = (f n).addChild c) :
    AddsHandle node (w.modifyNode id f) (w'.modifyNode id f) where
  nodes i := by
    have hne := hf.parent_ne_next hfits
    have hnext := hf.not_next hid
    rw [nodes_modifyNode, Table.get?_modify, h.nodes, get?_grow hne, get?_grow (w := w.modifyNode id f) hne]
    change _ = if w.nodes.next = i then some node else _
    rw [nodes_modifyNode, Table.get?_modify]
    by_cases hi : id = i
    · subst hi
      rw [if_pos rfl, if_neg hnext, if_neg hnext, if_pos rfl, Option.map_map, Option.map_map]
      refine congrArg (fun g => (w.nodes.get? id).map g) (funext fun m => ?_)
      dsimp only [Function.comp_apply]
      split
      · exact hadd _ _
      · rfl
    · rw [if_neg hi, if_neg hi]
      rfl
  table := h.table.modify _ _
  stores env := by
    rw [store?_modifyNode, h.stores, store?_grow, store?_grow, store?_modifyNode]
    rfl
  envs := h.envs
  callbacks env key := h.callbacks env key
  handles := h.handles
  listed := h.listed
  sturdy := h.sturdy

/-- What is done to the library on the way changes no handles. -/
lemma ofLibrary {l : Library} (h : AddsHandle node w w') (hl : w'.library.Same l)
    (hs : w'.library.failures.get? .destroy = none → l.failures.get? .destroy = none) :
    AddsHandle node w { w' with library := l } :=
  ⟨h.nodes, h.table, h.stores, h.envs, h.callbacks, fun a => hl.handles ▸ h.handles a, (hl.listed _).trans h.listed,
    hs h.sturdy⟩

/-- The leaf goes with its only wrapper. -/
lemma drop_eq_retire (h : AddsHandle node w w') (hf : w.Forest) (hfits : Fits node w) (hh : node.holders = 1) :
    Wrapper.drop ⟨some w.nodes.next⟩ w' = retire w.nodes.next (w'.modifyNode w.nodes.next Node.fewer) := by
  have hs : AddsHandle node.fewer w (w'.modifyNode w.nodes.next Node.fewer) := h.edit hf hfits rfl rfl rfl rfl
  have hfits' : Fits node.fewer w := ⟨hfits.fresh, hfits.bare, hfits.parent, hfits.env, hfits.unknown⟩
  have hv := hs.forest hf hfits'
  have hl := hs.live hf hfits'
  rw [drop_eq (h.live hf hfits).1, if_pos hh, hv.release hl, hv.postorder_eq hl, show node.fewer.children = [] from
    hfits.bare]
  rfl

lemma live_retire (h : AddsHandle node w w') (hf : w.Forest) (hfits : Fits node w) (id : Nat) (n : Node) :
    (retire w.nodes.next w').Live id n ↔ w.Live id n := by
  have hmiss : ∀ m, w.nodes.get? id = some m →
      (if node.parent = some id then m.addChild w.nodes.next else m).dropChild w.nodes.next = m := by
    intro m hm
    have hno : w.nodes.next ∉ m.children := fun hc => by
      obtain ⟨-, k, hk, -⟩ := hf.child hm hc
      exact hf.not_next hk.1 rfl
    split
    · exact Node.dropChild_addChild hno
    · exact Node.dropChild_eq_self hno
  rw [Live, Live, (h.forest hf hfits).get?_retire (h.live hf hfits), h.nodes, get?_grow (hf.parent_ne_next hfits)]
  by_cases hi : w.nodes.next = id
  · subst hi
    rw [if_pos rfl]
    exact ⟨fun hr => absurd (Option.some.inj hr.1 ▸ hr.2) (by simp [Node.retired]),
      fun hn => absurd rfl (hf.not_next hn.1)⟩
  · rw [if_neg hi, if_neg hi]
    cases hm : w.nodes.get? id with
    | none => simp
    | some m => simp [hmiss m hm]

lemma stored?_retire (h : AddsHandle node w w') (hf : w.Forest) (hfits : Fits node w) (env : Nat) (a : Address) :
    (retire w.nodes.next w').stored? env a = w.stored? env a := by
  rw [(h.forest hf hfits).stored?_retire (h.live hf hfits), stored?_eq w', h.stores, ← stored?_eq,
    Forest.stored?_grow hfits]
  by_cases he : node.env = env ∧ node.native = a
  · rw [if_pos he, if_pos rfl, ← he.1, ← he.2]
    exact hfits.unknown.symm
  · rw [if_neg he, if_neg]
    intro hst
    obtain ⟨m, hm, -⟩ := hf.stored env a _ hst
    exact hf.not_next hm.1 rfl

lemma handles_retire (h : AddsHandle node w w') (hf : w.Forest) (hfits : Fits node w) (ho : node.owned = true)
    (hnew : w.library.handles.get? node.native = none) (a : Address) :
    (retire w.nodes.next w').library.handles.get? a = w.library.handles.get? a := by
  have hl := h.live hf hfits
  have halive : w'.library.isAlive node.native = true :=
    Assoc.contains_iff.mpr ⟨node.kind, (h.handles _).trans (if_pos rfl)⟩
  rw [(retire_around hl.1 ((h.forest hf hfits).linked.parent_ne hl.1)).1, if_pos ho]
  obtain ⟨hno, -⟩ | ⟨-, hd⟩ := Library.letGo_spec node.kind node.native w'.library
  · simp [h.sturdy, halive] at hno
  · rw [hd.handles, h.listed, h.handles]
    by_cases ha : a = node.native
    · rw [if_pos (.inl ha), ha, hnew]
    · rw [if_neg (by simpa using ha), if_neg (fun e => ha e.symm)]

/-- A world from which the leaf has gone is the one to which it came. -/
theorem drop (h : AddsHandle node w w') (hf : w.Forest) (hb : NewLeaf node w)
    (hr : node.onRelease ≠ .unregisterCallbacks) : Restored w (Wrapper.drop ⟨some w.nodes.next⟩ w') := by
  have hs : AddsHandle node.fewer w (w'.modifyNode w.nodes.next Node.fewer) := h.edit hf hb.toFits rfl rfl rfl rfl
  have hfits' : Fits node.fewer w := ⟨hb.fresh, hb.bare, hb.parent, hb.env, hb.unknown⟩
  have hl := hs.live hf hfits'
  rw [h.drop_eq_retire hf hb.toFits hb.holders]
  refine ⟨hs.handles_retire hf hfits' hb.owned hb.new, hs.live_retire hf hfits', hs.stored?_retire hf hfits',
    fun env key => ?_⟩
  rw [callback?_retire hl.1 ((hs.forest hf hfits').linked.parent_ne hl.1), hs.callbacks]
  exact if_neg fun he => hr he.1

/-- A leaf that takes the callback along which is kept for its handle does nothing else. -/
theorem drop_forgetting (h : AddsHandle node w w') (hf : w.Forest) (hb : NewLeaf node w)
    (hr : node.onRelease = .unregisterCallbacks) :
    Restored (w.removeCallback node.env node.native).2 (Wrapper.drop ⟨some w.nodes.next⟩ w') := by
  have hs : AddsHandle node.fewer w (w'.modifyNode w.nodes.next Node.fewer) := h.edit hf hb.toFits rfl rfl rfl rfl
  have hfits' : Fits node.fewer w := ⟨hb.fresh, hb.bare, hb.parent, hb.env, hb.unknown⟩
  have hl := hs.live hf hfits'
  obtain ⟨hlibrary, hnodes, hstores⟩ := removeCallback_around node.env node.native w
  rw [h.drop_eq_retire hf hb.toFits hb.holders]
  refine ⟨fun a => ?_, fun id n => ?_, fun env a => ?_, fun env key => ?_⟩
  · rw [hs.handles_retire hf hfits' hb.owned hb.new, hlibrary]
  · rw [hs.live_retire hf hfits', Live, Live, hnodes]
  · rw [hs.stored?_retire hf hfits', stored?_eq, stored?_eq, hstores]
  · rw [callback?_retire hl.1 ((hs.forest hf hfits').linked.parent_ne hl.1), hs.callbacks, callback?_removeCallback]
    exact if_congr (and_iff_right hr) rfl rfl

end AddsHandle
end World
end DbClient
