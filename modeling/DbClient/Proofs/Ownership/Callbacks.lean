import DbClient.Proofs.Ownership.World

/-! What becomes of the owners and of the release callbacks of nodes along moves. A node keeps the owner that it was
given, and the callback as long as it lives; when it is released it runs that, and has none any more. -/
namespace DbClient
namespace Node
variable {n m k : Node} {ran ran' ran'' : Prop}

/-- A node and what has become of it. It has run its callback since, if it had one, just when it has been released
since. -/
structure CallbackOnRelease (ran ran' : Prop) (n m : Node) : Prop where
  owned : m.owned = n.owned
  released : n.released = true → m.released = true
  callback : m.released = false → m.onRelease = n.onRelease
  run : ran' ↔ ran ∨ n.released = false ∧ m.released = true ∧ n.onRelease ≠ .nothing

namespace CallbackOnRelease

/-- A change of other parts, by which no callback runs. -/
lemma beside (owned : m.owned = n.owned) (released : m.released = n.released) (callback : m.onRelease = n.onRelease) :
    CallbackOnRelease ran ran n m := by
  refine ⟨owned, fun h => released.trans h, fun _ => callback, (or_iff_left ?_).symm⟩
  rintro ⟨hn, hm, -⟩
  rw [released, hn] at hm
  cases hm

lemma trans (h : CallbackOnRelease ran ran' n m) (h' : CallbackOnRelease ran' ran'' m k) :
    CallbackOnRelease ran ran'' n k where
  owned := h'.owned.trans h.owned
  released := fun hn => h'.released (h.released hn)
  callback := fun hk => by
    have hm : m.released = false := Bool.eq_false_iff.mpr fun hm => by
      rw [h'.released hm] at hk
      cases hk
    exact (h'.callback hk).trans (h.callback hm)
  run := by
    rw [h'.run, h.run, or_assoc]
    refine or_congr_right ⟨?_, ?_⟩
    · rintro (⟨hn, hm, hc⟩ | ⟨hm, hk, hc⟩)
      · exact ⟨hn, h'.released hm, hc⟩
      · have hn : n.released = false := Bool.eq_false_iff.mpr fun hn => by
          rw [h.released hn] at hm
          cases hm
        exact ⟨hn, hk, h.callback hm ▸ hc⟩
    · rintro ⟨hn, hk, hc⟩
      -- it has been released either by then, or after that
      cases hm : m.released with
      | true => exact .inl ⟨hn, rfl, hc⟩
      | false => exact .inr ⟨rfl, hk, (h.callback hm).symm ▸ hc⟩

/-- The release of a node. -/
lemma retired (hn : n.released = false) (hran : ran' ↔ ran ∨ n.onRelease ≠ .nothing) :
    CallbackOnRelease ran ran' n n.retired where
  owned := rfl
  released := fun _ => rfl
  callback := nofun
  run := by
    rw [hran]
    exact or_congr_right ⟨fun hc => ⟨hn, rfl, hc⟩, fun h => h.2.2⟩

end CallbackOnRelease

lemma action_mem_steps {i id : Nat} : .action i ∈ steps id n ↔ i = id ∧ n.onRelease ≠ .nothing := by
  unfold steps
  split <;> split <;> simp_all

end Node

namespace World
variable {w w' w'' : World} {id : Nat} {n node : Node}

/-- All nodes are still there; each has run its callback since just when it has been released since. -/
def CallbacksOnRelease (w w' : World) : Prop :=
  ∀ id n, w.nodes.get? id = some n →
    ∃ m, w'.nodes.get? id = some m ∧ Node.CallbackOnRelease (.action id ∈ w.releases) (.action id ∈ w'.releases) n m

namespace CallbacksOnRelease

lemma of_nodes (nodes : w'.nodes = w.nodes) (releases : w'.releases = w.releases) :
    CallbacksOnRelease w w' := fun id n hn => by
  rw [releases]
  exact ⟨n, nodes ▸ hn, .beside rfl rfl rfl⟩

@[refl] lemma refl (w : World) : CallbacksOnRelease w w := of_nodes rfl rfl

lemma trans (h : CallbacksOnRelease w w') (h' : CallbacksOnRelease w' w'') :
    CallbacksOnRelease w w'' := fun id n hn => by
  obtain ⟨m, hm, hnm⟩ := h id n hn
  obtain ⟨k, hk, hmk⟩ := h' id m hm
  exact ⟨k, hk, hnm.trans hmk⟩

lemma modifyNode {f : Node → Node}
    (hf : ∀ n, (f n).owned = n.owned ∧ (f n).released = n.released ∧ (f n).onRelease = n.onRelease) (id : Nat)
    (w : World) : CallbacksOnRelease w (w.modifyNode id f) := fun i n hn => by
  rw [nodes_modifyNode, Table.get?_modify, hn]
  obtain ⟨ho, hr, hc⟩ := hf n
  split
  · exact ⟨f n, rfl, .beside ho hr hc⟩
  · exact ⟨n, rfl, .beside rfl rfl rfl⟩

lemma keeping (d : StatementData) (id : Nat) (w : World) : CallbacksOnRelease w (w.modifyNode id (Node.keeping d)) :=
  modifyNode (f := Node.keeping d) (fun _ => ⟨rfl, rfl, rfl⟩) id w

lemma retire (hf : w.Forest) (hl : w.Live id n) : CallbacksOnRelease w (w.retire id) := fun i m hm => by
  have hreleases : (w.retire id).releases = w.releases ++ Node.steps id n :=
    (retire_around hl.1 (hf.linked.parent_ne hl.1)).2.2
  have hran : .action i ∈ (w.retire id).releases ↔
      .action i ∈ w.releases ∨ i = id ∧ n.onRelease ≠ .nothing := by
    rw [hreleases, List.mem_append, Node.action_mem_steps]
  rw [hf.get?_retire hl]
  split
  · rename_i he
    subst he
    obtain rfl := Option.some.inj (hl.1.symm.trans hm)
    exact ⟨n.retired, rfl, .retired hl.2 (hran.trans (or_congr_right (and_iff_right rfl)))⟩
  · rename_i hne
    have hsame : .action i ∈ (w.retire id).releases ↔ .action i ∈ w.releases :=
      hran.trans (or_iff_left fun h => hne h.1.symm)
    rw [hm, hsame]
    exact ⟨m.dropChild id, rfl, .beside rfl rfl rfl⟩

lemma grow (hf : w.Forest) (h : Fits node w) : CallbacksOnRelease w (w.grow node) := fun i n hn => by
  refine ⟨_, hf.get?_grow_of_get? h hn, ?_⟩
  rw [releases_grow]
  split <;> exact .beside rfl rfl rfl

instance : IsTrans World CallbacksOnRelease := ⟨fun _ _ _ => trans⟩

end CallbacksOnRelease
end World

open World
variable {t : Terms} {hs hs' : Multiset Nat} {w w' : World}

/-- Across each move of the client callbacks run as nodes are released. -/
theorem Move.callbacksOnRelease (ht : t.foreign = false) (h : Move t hs w hs' w') (hw : Sound hs w) :
    CallbacksOnRelease w w' := by
  have hf := hw.forest
  have hstep : ∀ v j m, v.Forest → CallbacksOnRelease w v → v.Live j m → m.children = [] →
      CallbacksOnRelease w (v.retire j) :=
    fun v j m hv hc hl _ => hc.trans (.retire hv hl)
  cases h with
  | quiet h => exact .of_nodes h.nodes h.releases
  | foreign hforeign => exact absurd (ht.symm.trans hforeign) nofun
  | fault => exact .of_nodes rfl rfl
  | openEnv => exact .of_nodes rfl rfl
  | acquire => exact .modifyNode (f := fun n => { n with holders := n.holders + 1 }) (fun _ => ⟨rfl, rfl, rfl⟩) _ w
  | drop id =>
    exact hf.drop_induction id (.modifyNode (f := Node.fewer) (fun _ => ⟨rfl, rfl, rfl⟩) id w) hstep
  | release hl => exact (hf.release_induction hl (.refl w) hstep).2
  | wrap hforeign => exact absurd (ht.symm.trans hforeign) nofun
  | @adopt _ _ node l _ hfits =>
    have hlib : World.Forest { w with library := l } := hf.congr hf.table hf.envs (fun _ => rfl) fun _ => rfl
    have hmade : CallbacksOnRelease w { w with library := l } := .of_nodes rfl rfl
    exact hmade.trans (.grow hlib ⟨hfits.fresh, hfits.bare, hfits.parent, hfits.env, hfits.unknown⟩)
  | known => exact .of_nodes rfl rfl
  | lend _ _ _ _ hfits => exact .grow hf hfits
  | @keep _ _ id _ e =>
    have hkept : CallbacksOnRelease w (w.modifyNode id fun n => { n with extra := e }) :=
      .modifyNode (f := fun n => { n with extra := e }) (fun _ => ⟨rfl, rfl, rfl⟩) id w
    exact hkept.trans (.of_nodes rfl rfl)
  | tune => exact .keeping _ _ w
  | @close _ _ id _ d sql => exact (CallbacksOnRelease.keeping (d.reset sql) id w).trans (.of_nodes rfl rfl)
  | @renew _ _ id _ d sql mode l =>
    have hlib : CallbacksOnRelease w { w with library := l } := .of_nodes rfl rfl
    exact hlib.trans (.keeping _ id _)
  | @bind _ _ id _ d plan l log =>
    have hmade : CallbacksOnRelease w { (BindObject.place plan w).2 with library := l, log := log } := .of_nodes rfl rfl
    exact (hmade.trans (.keeping _ id _)).trans (.of_nodes rfl rfl)
  | execute => exact .of_nodes rfl rfl

theorem Path.callbacksOnRelease {a b : Multiset Nat × World} (ht : t.foreign = false) (h : Path t a b)
    (hw : Sound a.1 a.2) : CallbacksOnRelease a.2 b.2 := by
  induction h with
  | refl => exact .refl _
  | tail hp hm ih => exact ih.trans (hm.callbacksOnRelease ht (Path.sound hp hw))

end DbClient
