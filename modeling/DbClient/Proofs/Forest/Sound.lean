import DbClient.Proofs.Forest.Effects
import DbClient.Proofs.Forest.Growth
import Mathlib.Data.Multiset.Count
import Mathlib.Data.Multiset.UnionInter

/-! Sound worlds: beside the law of the forest, the number of wrappers of each node is the number of those
that are held, each live node is held, and no step of a release has been made twice. -/
namespace DbClient

/-- The node without its action and what it keeps. -/
def Node.core (n : Node) : Node := { n with onRelease := .nothing, extra := none }

/-- The node with one wrapper less. -/
def Node.fewer (n : Node) : Node := { n with holders := n.holders - 1 }

/-- The node of a step of a release. -/
def ReleaseStep.node : ReleaseStep → Nat
  | action id => id
  | destroy id => id

namespace World
variable {w w' : World} {hs : Multiset Nat} {id i j k p : Nat} {n m node : Node} {ids : List Nat}

lemma get?_fewer (id i : Nat) (w : World) : (w.modifyNode id Node.fewer).nodes.get? i =
    if id = i then (w.nodes.get? i).map Node.fewer else w.nodes.get? i := Table.get?_modify _ _ _ _

lemma Forest.fewer (hw : w.Forest) (id : Nat) : (w.modifyNode id Node.fewer).Forest :=
  hw.modifyNode (f := Node.fewer) (fun _ => rfl) id

/-- A wrapper is dropped: the node has one wrapper less, and with the last one its tree is released. -/
lemma drop_eq (hn : w.nodes.get? id = some n) : Wrapper.drop ⟨some id⟩ w =
    if n.holders = 1 then ((w.modifyNode id Node.fewer).release id).2 else w.modifyNode id Node.fewer := by
  unfold Wrapper.drop
  simp only [hn, Option.any_some, decide_eq_true_eq]
  rfl

/-- A wrapper that is left over releases nothing when it is dropped. -/
lemma drop_leftover (hn : w.nodes.get? id = some n) (hr : n.released = true) :
    Wrapper.drop ⟨some id⟩ w = w.modifyNode id Node.fewer := by
  have hself : (w.modifyNode id Node.fewer).nodes.get? id = some n.fewer := by simp [hn]
  rw [drop_eq hn, release_of_released hself hr, ite_self]

/-- A wrapper of a node that is not there releases nothing, either. -/
lemma drop_of_none (hn : w.nodes.get? id = none) : Wrapper.drop ⟨some id⟩ w = w.modifyNode id Node.fewer := by
  simp only [Wrapper.drop, hn]
  rfl

/-- What is kept by a wrapper less, and by the releases that the last wrapper brings about, is kept when a wrapper is
dropped. -/
theorem Forest.drop_within {P : World → Prop} (hw : w.Forest) (id : Nat) (base : P (w.modifyNode id Node.fewer))
    (step : ∀ n, w.Live id n → n.holders = 1 →
      ∀ v j m, v.Forest → P v → v.Live j m → m.children = [] → v.Below id j → P (v.retire j)) :
    P (Wrapper.drop ⟨some id⟩ w) := by
  cases hn : w.nodes.get? id with
  | none =>
    rw [drop_of_none hn]
    exact base
  | some n =>
    by_cases hr : n.released = true
    · rw [drop_leftover hn hr]
      exact base
    · have hlive : n.released = false := Bool.eq_false_iff.mpr hr
      rw [drop_eq hn]
      split
      · rename_i hh
        have hl : (w.modifyNode id Node.fewer).Live id n.fewer := ⟨by simp [hn], hlive⟩
        exact (hw.fewer id).release_within hl base (step n ⟨hn, hlive⟩ hh)
      · exact base

/-- The same, of what is kept by the release of any leaf. -/
theorem Forest.drop_induction {P : World → Prop} (hw : w.Forest) (id : Nat) (base : P (w.modifyNode id Node.fewer))
    (step : ∀ v j m, v.Forest → P v → v.Live j m → m.children = [] → P (v.retire j)) :
    P (Wrapper.drop ⟨some id⟩ w) :=
  hw.drop_within id base fun _ _ _ v j m hv hp hl hc _ => step v j m hv hp hl hc

/-- A node is listed for each wrapper of it that is held: its wrappers are counted, and it exists. -/
structure Counted (hs : Multiset Nat) (w : World) : Prop where
  count : ∀ id n, w.nodes.get? id = some n → n.holders = hs.count id
  exist : ∀ id, id ∈ hs → ∃ n, w.nodes.get? id = some n

/-- The steps of releases so far belong to nodes that have been released, and are all different. -/
structure Traced (w : World) : Prop where
  nodup : w.releases.Nodup
  past : ∀ s ∈ w.releases, ∃ n, w.nodes.get? s.node = some n ∧ n.released = true

structure Sound (hs : Multiset Nat) (w : World) : Prop where
  forest : w.Forest
  counted : Counted hs w
  held : ∀ id n, w.Live id n → 0 < n.holders
  traced : w.Traced

/-- A step that leaves the forest alone: it can change actions and what nodes keep. -/
structure Still (w w' : World) : Prop where
  table : w.nodes.Lawful → w'.nodes.Lawful
  next : w'.nodes.next = w.nodes.next
  nodes : ∀ id, (w'.nodes.get? id).map Node.core = (w.nodes.get? id).map Node.core
  releases : w'.releases = w.releases
  envs : w.envs.Lawful → w'.envs.Lawful
  stores : ∀ env, w'.store? env = w.store? env

namespace Still
variable {w'' : World}

lemma of_nodes (nodes : w'.nodes = w.nodes) (releases : w'.releases = w.releases)
    (envs : w.envs.Lawful → w'.envs.Lawful) (stores : ∀ env, w'.store? env = w.store? env) : Still w w' :=
  ⟨fun h => nodes ▸ h, by rw [nodes], fun _ => by rw [nodes], releases, envs, stores⟩

@[refl] lemma refl (w : World) : Still w w := of_nodes rfl rfl id fun _ => rfl

lemma trans (h : Still w w') (h' : Still w' w'') : Still w w'' :=
  ⟨fun ht => h'.table (h.table ht), h'.next.trans h.next, fun id => (h'.nodes id).trans (h.nodes id),
    h'.releases.trans h.releases, fun he => h'.envs (h.envs he),
    fun env => (h'.stores env).trans (h.stores env)⟩

instance : Std.Refl Still := ⟨refl⟩

instance : IsTrans World Still := ⟨fun _ _ _ => trans⟩

/-- An edit of what a node keeps. -/
lemma modifyNode {f : Node → Node} (hf : ∀ n, (f n).core = n.core) (id : Nat) (w : World) :
    Still w (w.modifyNode id f) := by
  refine ⟨fun h => h.modify _ _, rfl, fun i => ?_, rfl, fun h => h, fun _ => rfl⟩
  rw [nodes_modifyNode, Table.get?_modify]
  split <;> simp [Function.comp_def, hf]

/-- Each node of the new world has a counterpart in the old one. -/
lemma back (h : Still w w') (hn : w'.nodes.get? id = some n) :
    ∃ m, w.nodes.get? id = some m ∧ m.core = n.core := exists_of_map_eq (h.nodes id) hn

lemma forth (h : Still w w') (hn : w.nodes.get? id = some n) :
    ∃ m, w'.nodes.get? id = some m ∧ m.core = n.core := exists_of_map_eq (h.nodes id).symm hn

lemma live_back (h : Still w w') (hn : w'.Live id n) : ∃ m, w.Live id m ∧ m.core = n.core := by
  obtain ⟨m, hm, hc⟩ := h.back hn.1
  exact ⟨m, ⟨hm, (congrArg Node.released hc).trans hn.2⟩, hc⟩

end Still

namespace Sound

/-! ### Steps that leave the forest alone, and growth -/

theorem still (hw : Sound hs w) (h : Still w w') : Sound hs w' where
  forest := by
    have hl : ∀ o : Option Node, o.map Node.links = (o.map Node.core).map fun n => { n with holders := 0 } := by
      intro o
      cases o <;> rfl
    refine hw.forest.congr (h.table hw.forest.table) (h.envs hw.forest.envs) (fun id => ?_) h.stores
    rw [hl, hl, h.nodes]
  counted := by
    refine ⟨fun id n hn => ?_, fun id hid => ?_⟩
    · obtain ⟨m, hm, hc⟩ := h.back hn
      exact (congrArg Node.holders hc).symm.trans (hw.counted.count id m hm)
    · obtain ⟨m, hm⟩ := hw.counted.exist id hid
      exact (h.forth hm).imp fun _ h => h.1
  held id n hn := by
    obtain ⟨m, hm, hc⟩ := h.live_back hn
    exact (congrArg Node.holders hc) ▸ hw.held id m hm
  traced := by
    refine ⟨h.releases ▸ hw.traced.nodup, fun s hs => ?_⟩
    obtain ⟨n, hn, hr⟩ := hw.traced.past s (h.releases ▸ hs)
    obtain ⟨m, hm, hc⟩ := h.forth hn
    exact ⟨m, hm, (congrArg Node.released hc).trans hr⟩

/-- One more wrapper of a live node. -/
theorem acquire (hw : Sound hs w) (hl : w.Live id n) : Sound (id ::ₘ hs) (Wrapper.acquire id w).2 where
  forest := hw.forest.modifyNode (f := fun n => { n with holders := n.holders + 1 }) (fun _ => rfl) id
  counted := by
    refine ⟨fun i m hm => ?_, fun i hi => ?_⟩
    · change (w.nodes.modify id _).get? i = some m at hm
      rw [Table.get?_modify] at hm
      split at hm
      · rename_i e
        subst e
        obtain ⟨m', hm', rfl⟩ := Option.map_eq_some_iff.mp hm
        rw [Multiset.count_cons_self, ← hw.counted.count id m' hm']
      · rename_i e
        rw [Multiset.count_cons_of_ne (Ne.symm e)]
        exact hw.counted.count i m hm
    · change ∃ m, (w.nodes.modify id _).get? i = some m
      rw [Table.get?_modify]
      rcases Multiset.mem_cons.mp hi with hi | hi
      · subst hi
        exact ⟨_, by rw [if_pos rfl, hl.1]; rfl⟩
      · obtain ⟨m, hm⟩ := hw.counted.exist i hi
        split
        · exact ⟨_, by rw [hm]; rfl⟩
        · exact ⟨m, hm⟩
  held i m hm := by
    obtain ⟨hm, hr⟩ := hm
    change (w.nodes.modify id _).get? i = some m at hm
    rw [Table.get?_modify] at hm
    split at hm
    · obtain ⟨m', hm', rfl⟩ := Option.map_eq_some_iff.mp hm
      exact Nat.succ_pos _
    · exact hw.held i m ⟨hm, hr⟩
  traced := by
    refine ⟨hw.traced.nodup, fun s hs => ?_⟩
    obtain ⟨m, hm, hr⟩ := hw.traced.past s hs
    change ∃ m, (w.nodes.modify id _).get? s.node = some m ∧ _
    rw [Table.get?_modify, hm]
    split
    · exact ⟨{ m with holders := m.holders + 1 }, rfl, hr⟩
    · exact ⟨m, rfl, hr⟩

/-- A new node with its first wrapper. -/
theorem grow (hw : Sound hs w) (h : Fits node w) (hh : node.holders = 1) :
    Sound (w.nodes.next ::ₘ hs) (w.grow node) where
  forest := hw.forest.grow h
  counted := by
    have hnew : w.nodes.next ∉ hs := fun hm => by
      obtain ⟨m, hm⟩ := hw.counted.exist _ hm
      exact hw.forest.not_next hm rfl
    refine ⟨fun i m hm => ?_, fun i hi => ?_⟩
    · obtain ⟨rfl, rfl⟩ | ⟨hne, m', hm', rfl⟩ := hw.forest.grow_cases h hm
      · rw [Multiset.count_cons_self, Multiset.count_eq_zero_of_notMem hnew, hh]
      · rw [Multiset.count_cons_of_ne hne, ← hw.counted.count i m' hm']
        split <;> rfl
    · rcases Multiset.mem_cons.mp hi with hi | hi
      · subst hi
        exact ⟨node, hw.forest.get?_grow_next h⟩
      · obtain ⟨m, hm⟩ := hw.counted.exist i hi
        exact ⟨_, hw.forest.get?_grow_of_get? h hm⟩
  held i m hm := by
    obtain ⟨rfl, rfl⟩ | ⟨hne, m', hm', rfl⟩ := hw.forest.grow_cases h hm.1
    · omega
    · have hl : w.Live i m' := ⟨hm', by simpa [apply_ite Node.released, Node.addChild] using hm.2⟩
      have := hw.held i m' hl
      split <;> exact this
  traced := by
    refine ⟨releases_grow node w ▸ hw.traced.nodup, fun s hs => ?_⟩
    obtain ⟨m, hm, hr⟩ := hw.traced.past s (releases_grow node w ▸ hs)
    refine ⟨_, hw.forest.get?_grow_of_get? h hm, ?_⟩
    split <;> exact hr

theorem openEnv (hw : Sound hs w) {e : EnvState} (he : e.store = ∅) :
    Sound hs { w with envs := w.envs.add e } :=
  ⟨hw.forest.openEnv he, ⟨hw.counted.count, hw.counted.exist⟩, hw.held, ⟨hw.traced.nodup, hw.traced.past⟩⟩

end Sound

/-! ### Releases -/

lemma Counted.retireAll (hc : Counted hs w) (hw : w.Forest) (hb : w.BottomUp ids) :
    Counted hs (retireAll ids w) := by
  refine ⟨fun i m hm => ?_, fun i hi => ?_⟩
  · rw [hw.get?_retireAll hb] at hm
    split at hm
    all_goals
      obtain ⟨m', hm', rfl⟩ := Option.map_eq_some_iff.mp hm
      exact hc.count i m' hm'
  · obtain ⟨m, hm⟩ := hc.exist i hi
    rw [hw.get?_retireAll hb, hm]
    split <;> exact ⟨_, rfl⟩

/-- One wrapper of a node less. -/
lemma Counted.fewer (hc : Counted (id ::ₘ hs) w) : Counted hs (w.modifyNode id Node.fewer) := by
  refine ⟨fun i m hm => ?_, fun i hi => ?_⟩
  · rw [get?_fewer] at hm
    split at hm
    · rename_i e
      subst e
      obtain ⟨m', hm', rfl⟩ := Option.map_eq_some_iff.mp hm
      have := hc.count id m' hm'
      rw [Multiset.count_cons_self] at this
      change m'.holders - 1 = _
      omega
    · rename_i e
      rw [hc.count i m hm, Multiset.count_cons_of_ne (Ne.symm e)]
  · obtain ⟨m, hm⟩ := hc.exist i (Multiset.mem_cons_of_mem hi)
    rw [get?_fewer, hm]
    split <;> exact ⟨_, rfl⟩

lemma Traced.fewer (ht : w.Traced) (id : Nat) : (w.modifyNode id Node.fewer).Traced := by
  refine ⟨ht.nodup, fun s hs => ?_⟩
  obtain ⟨m, hm, hr⟩ := ht.past s hs
  rw [get?_fewer, hm]
  split
  · exact ⟨_, rfl, hr⟩
  · exact ⟨_, rfl, hr⟩

lemma node_of_mem_steps {s : ReleaseStep} (hs : s ∈ Node.steps id n) : s.node = id := by
  unfold Node.steps at hs
  rcases List.mem_append.mp hs with hs | hs
  · split at hs
    · cases hs
    · rw [List.mem_singleton.mp hs]
      rfl
  · split at hs
    · rw [List.mem_singleton.mp hs]
      rfl
    · cases hs

lemma nodup_steps (id : Nat) (n : Node) : (Node.steps id n).Nodup := by
  unfold Node.steps
  split <;> split <;> simp

lemma mem_steps {s : ReleaseStep} (hs : s ∈ w.steps id) : s.node = id := by
  unfold steps at hs
  cases hn : w.nodes.get? id with
  | none =>
    rw [hn] at hs
    cases hs
  | some n =>
    rw [hn] at hs
    exact node_of_mem_steps hs

/-- What a cascade adds to the trace is new, for it belongs to nodes that were alive. -/
lemma Traced.retireAll (ht : w.Traced) (hw : w.Forest) (hb : w.BottomUp ids) : (retireAll ids w).Traced := by
  have hrel := hw.releases_retireAll hb
  refine ⟨?_, fun s hs => ?_⟩
  · rw [hrel]
    refine List.Nodup.append ht.nodup ?_ ?_
    · refine List.nodup_flatMap.mpr ⟨fun j hj => ?_, hb.nodup.imp ?_⟩
      · obtain ⟨m, hm⟩ := hb.live j hj
        rw [steps, hm.1]
        exact nodup_steps j m
      · intro a b hab s ha hsb
        exact hab ((mem_steps ha).symm.trans (mem_steps hsb))
    · intro s hs hnew
      obtain ⟨j, hj, hsj⟩ := List.mem_flatMap.mp hnew
      obtain ⟨m, hm⟩ := hb.live j hj
      obtain ⟨n, hn, hr⟩ := ht.past s hs
      rw [mem_steps hsj, hm.1] at hn
      rw [← Option.some.inj hn, hm.2] at hr
      cases hr
  · rw [hw.get?_retireAll hb]
    rw [hrel] at hs
    rcases List.mem_append.mp hs with hs | hs
    · obtain ⟨n, hn, hr⟩ := ht.past s hs
      rw [hn]
      split
      · exact ⟨_, rfl, rfl⟩
      · exact ⟨_, rfl, hr⟩
    · obtain ⟨j, hj, hsj⟩ := List.mem_flatMap.mp hs
      obtain ⟨m, hm⟩ := hb.live j hj
      rw [mem_steps hsj, if_pos hj, hm.1]
      exact ⟨_, rfl, rfl⟩

namespace Sound

lemma retireAll (hw : Sound hs w) (hb : w.BottomUp ids) : Sound hs (retireAll ids w) where
  forest := hw.forest.retireAll hb
  counted := hw.counted.retireAll hw.forest hb
  held i m hm := by
    obtain ⟨-, m', hm', rfl⟩ := (hw.forest.live_retireAll hb).mp hm
    exact hw.held i m' hm'
  traced := hw.traced.retireAll hw.forest hb

/-- A forced release, however many wrappers there are. -/
theorem release (hw : Sound hs w) (hl : w.Live id n) : Sound hs (w.release id).2 := by
  rw [hw.forest.release hl]
  exact hw.retireAll (hw.forest.bottomUp hl)

/-- One wrapper less; the last one of a node releases it. -/
theorem drop (hw : Sound (id ::ₘ hs) w) : Sound hs (Wrapper.drop ⟨some id⟩ w) := by
  obtain ⟨n, hn⟩ := hw.counted.exist id (Multiset.mem_cons_self _ _)
  have hcount := hw.counted.count id n hn
  rw [Multiset.count_cons_self] at hcount
  -- the world with one wrapper less, before anything is released
  have hforest := hw.forest.fewer id
  have hcounted := hw.counted.fewer
  have htraced := hw.traced.fewer id
  have hothers : ∀ i m, i ≠ id → (w.modifyNode id Node.fewer).Live i m → 0 < m.holders := by
    intro i m hne hm
    have hm1 := hm.1
    rw [get?_fewer, if_neg (Ne.symm hne)] at hm1
    exact hw.held i m ⟨hm1, hm.2⟩
  by_cases hr : n.released = true
  · rw [drop_leftover hn hr]
    refine ⟨hforest, hcounted, fun i m hm => hothers i m ?_ hm, htraced⟩
    rintro rfl
    obtain ⟨hm1, hm2⟩ := hm
    rw [get?_fewer, if_pos rfl, hn] at hm1
    obtain rfl := Option.some.inj hm1
    exact absurd (hr.symm.trans hm2) (by simp)
  · have hl : (w.modifyNode id Node.fewer).Live id n.fewer := ⟨by simp [hn], Bool.eq_false_iff.mpr hr⟩
    rw [drop_eq hn]
    split
    · have hb := hforest.bottomUp hl
      rw [hforest.release hl]
      refine ⟨hforest.retireAll hb, hcounted.retireAll hforest hb, fun i m hm => ?_,
        htraced.retireAll hforest hb⟩
      obtain ⟨hi, m', hm', rfl⟩ := (hforest.live_retireAll hb).mp hm
      exact hothers i m' (fun e => hi (e ▸ hforest.self_mem_postorder hl)) hm'
    · refine ⟨hforest, hcounted, fun i m hm => ?_, htraced⟩
      by_cases hi : i = id
      · subst hi
        obtain rfl := hl.unique hm
        change 0 < n.holders - 1
        omega
      · exact hothers i m hi hm

end Sound
end World
end DbClient
