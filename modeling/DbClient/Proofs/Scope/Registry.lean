import DbClient.Proofs.Scope.Operations
import DbClient.Proofs.Scope.Nodes
import DbClient.Proofs.Frame.Leaf

/-! What steps do to the callbacks of environments. Those that neither register nor remove any take away just what was
registered under the handles of connections that they release. -/
namespace DbClient
open World

variable {S : Scope} {w w' w'' : World} {id env : Nat} {n m : Node} {key : Address}

namespace World

/-! ### Entries -/

lemma enrolled?_setCallback {a : Address} (ha : a.isNull = false) (env' : Nat) (c : Option Callback)
    (he : (w.envs.get? env').isSome) (env : Nat) (key : Address) : (w.setCallback env' a c).enrolled? env key =
      if env' = env ∧ a = key then c else w.enrolled? env key := by
  unfold setCallback
  rw [ha, if_neg nofun]
  cases c with
  | some c =>
    obtain ⟨e, he⟩ := Option.isSome_iff_exists.mp he
    simp only [enrolled?, modifyEnv, Table.get?_modify]
    by_cases henv : env' = env
    · subst henv
      by_cases hk : a = key <;> simp [he, hk]
    · simp [henv]
  | none =>
    unfold removeCallback
    dsimp only
    split
    · rename_i hnone
      rw [callback?_eq, ha, if_neg nofun] at hnone
      split
      · rename_i hkey
        rw [← hkey.1, ← hkey.2]
        exact hnone
      · rfl
    · exact enrolled?_erasing env' env a key w

lemma enrolled?_clearCallbacks (env' env : Nat) (key : Address) (w : World) :
    (w.clearCallbacks env').enrolled? env key = if env' = env then none else w.enrolled? env key := by
  simp only [enrolled?, clearCallbacks, modifyEnv, Table.get?_modify]
  split
  · cases w.envs.get? env with
    | none => rfl
    | some e => rfl
  · rfl

/-! ### Entries that are pruned -/

/-- Callbacks go with the nodes that take them along when they are released, and no others come or go. -/
structure Prunes (w w' : World) : Prop where
  keepsTrunks : KeepsTrunks w w'
  old : ∀ env key c, w'.enrolled? env key = some c → w.enrolled? env key = some c
  stays : ∀ id n m, w.Live id n → w'.Live id m → n.onRelease = .unregisterCallbacks →
    w'.enrolled? n.env n.native = w.enrolled? n.env n.native
  goes : ∀ id n, w.Live id n → (∀ m, ¬w'.Live id m) → n.onRelease = .unregisterCallbacks →
    w'.enrolled? n.env n.native = none

namespace Prunes

/-- Callbacks stay where no node is released. -/
lemma of_entries (keepsTrunks : KeepsTrunks w w') (entries : ∀ env key, w'.enrolled? env key = w.enrolled? env key)
    (live : ∀ id n, w.Live id n → ∃ m, w'.Live id m) : Prunes w w' where
  keepsTrunks := keepsTrunks
  old env key c h := entries env key ▸ h
  stays _ n _ _ _ _ := entries n.env n.native
  goes id n hl hgone _ := by
    obtain ⟨m, hm⟩ := live id n hl
    exact absurd hm (hgone m)

lemma trans (h : Prunes w w') (h' : Prunes w' w'') : Prunes w w'' where
  keepsTrunks := h.keepsTrunks.trans h'.keepsTrunks
  old env key c hc := h.old env key c (h'.old env key c hc)
  stays id n k hl hk hr := by
    obtain ⟨m, hm⟩ := h.keepsTrunks.there id n hl.1
    obtain ⟨hm, -⟩ := h'.keepsTrunks.trunk id m k hm hk
    obtain ⟨hnative, -, -, -, -, haction, henv⟩ := Node.of_trunk (h.keepsTrunks.trunk id n m hl.1 hm).2
    have hlater := h'.stays id m k hm hk (haction.trans hr)
    rw [hnative, henv] at hlater
    exact hlater.trans (h.stays id n m hl hm hr)
  goes id n hl hgone hr := by
    by_cases hmid : ∃ m, w'.Live id m
    · obtain ⟨m, hm⟩ := hmid
      obtain ⟨hnative, -, -, -, -, haction, henv⟩ := Node.of_trunk (h.keepsTrunks.trunk id n m hl.1 hm).2
      have hlater := h'.goes id m hm hgone (haction.trans hr)
      rwa [hnative, henv] at hlater
    · refine Option.eq_none_iff_forall_not_mem.mpr fun c hc => ?_
      have hnone := h.goes id n hl (fun m hm => hmid ⟨m, hm⟩) hr
      exact absurd (hnone.symm.trans (h'.old _ _ c hc)) nofun

instance : IsTrans World Prunes := ⟨fun _ _ _ => trans⟩

lemma of_nodes (nodes : w'.nodes = w.nodes) (entries : ∀ env key, w'.enrolled? env key = w.enrolled? env key) :
    Prunes w w' := of_entries (.of_nodes nodes) entries fun _ n hl => ⟨n, nodes ▸ hl.1, hl.2⟩

lemma modifyNode {f : Node → Node} (hf : ∀ n, (f n).trunk = n.trunk) (id : Nat) (w : World) :
    Prunes w (w.modifyNode id f) := by
  refine of_entries (.modifyNode hf id w) (fun _ _ => rfl) fun i n hl => ⟨if id = i then f n else n, ?_, ?_⟩
  · rw [nodes_modifyNode, Table.get?_modify, hl.1]
    split <;> rfl
  · split
    · exact (Node.of_trunk (hf n)).2.2.2.1.trans hl.2
    · exact hl.2

/-- Only the node that is released takes its callback along. -/
lemma retire (hf : w.Forest) (hl : w.Live id n) : Prunes w (w.retire id) where
  keepsTrunks := .retire hf hl
  old env key c h := by
    rw [enrolled?_retire hl.1 (hf.linked.parent_ne hl.1)] at h
    split at h
    · cases h
    · exact h
  stays i k m hk hm hr := by
    rw [enrolled?_retire hl.1 (hf.linked.parent_ne hl.1)]
    refine if_neg fun ⟨_, he, hn⟩ => ?_
    obtain rfl := hf.unique hl hk he hn
    have hrow := hf.get?_retire hl id
    rw [if_pos rfl] at hrow
    obtain rfl := Option.some.inj (hrow.symm.trans hm.1)
    exact absurd hm.2 nofun
  goes i k hk hgone hr := by
    by_cases hi : id = i
    · subst hi
      obtain rfl := hl.unique hk
      rw [enrolled?_retire hl.1 (hf.linked.parent_ne hl.1)]
      exact if_pos ⟨hr, rfl, rfl⟩
    · have hrow := hf.get?_retire hl i
      rw [if_neg hi, hk.1] at hrow
      exact absurd ⟨hrow, hk.2⟩ (hgone (k.dropChild id))

lemma grow {node : Node} (hf : w.Forest) (h : Fits node w) : Prunes w (w.grow node) := by
  refine of_entries (.grow hf h) (fun env key => ?_) fun i n hl => ⟨_, hf.get?_grow_of_get? h hl.1, ?_⟩
  · unfold World.grow Wrapper.addNode
    dsimp only
    split <;>
      exact enrolled?_modifyEnv (f := fun e => { e with store := e.store.put node.native w.nodes.next })
        (fun _ => rfl) _ _ _ _
  · split <;> exact hl.2

lemma openEnv {e : EnvState} (hf : w.Forest) (hn : e.callbacks = ∅) : Prunes w { w with envs := w.envs.add e } := by
  refine of_nodes rfl fun env key => ?_
  change ((w.envs.add e).get? env).bind _ = _
  rw [enrolled?, Table.get?_add]
  split
  · rename_i henv
    rw [← henv, hf.envs.get?_next, Option.bind_some, hn]
    rfl
  · rfl

/-- Steps that leave the registry alone prune it. -/
lemma across (hS : ¬S.registry) : Across S Prunes where
  same _ _ hn he := of_nodes hn fun env key => enrolled?_congr he env key
  edit _ hf := modifyNode hf
  retire _ _ _ hf hl _ := retire hf hl
  grow _ _ := grow
  openEnv _ _ hf _ hn := openEnv hf hn
  enroll hr := absurd hr hS

end Prunes
end World

theorem StepsWithin.prunes (hS : ¬S.registry) (hw : Standing w) (h : StepsWithin S w w') : Prunes w w' :=
  (Prunes.across hS).within hw h

end DbClient
