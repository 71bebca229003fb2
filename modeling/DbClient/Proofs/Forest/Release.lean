import DbClient.Proofs.Forest.Invariant
import Mathlib.Data.List.Basic
import Mathlib.Logic.Relation

/-! The release of a whole tree. In a forest the fuel of a cascade never runs out, the cascade is the
release of the nodes below its root in post-order, and each of them is a leaf when its turn comes. -/
namespace DbClient
namespace World
variable {w : World} {id i j k p depth depth' : Nat} {n m : Node}

/-- A node is in the tree below another one, which is itself a part of that tree. -/
def Below (w : World) (id k : Nat) : Prop := Relation.ReflTransGen (fun c p => w.parent? c = some p) k id

/-- The nodes of the tree below a node, children before parents and siblings in the order of their age. -/
def postorder (w : World) (id : Nat) : List Nat := postorderWithin (w.nodes.rows.size + 1) w id

/-- Live nodes with all that is below them, listed with no node before one of its children. -/
structure BottomUp (w : World) (ids : List Nat) : Prop where
  nodup : ids.Nodup
  live : ∀ j ∈ ids, ∃ m, w.Live j m
  closed : ∀ p ∈ ids, ∀ k, w.parent? k = some p → k ∈ ids
  pairwise : ids.Pairwise fun a b => w.parent? b ≠ some a

lemma Intact.unique (h : Intact depth w id) (h' : Intact depth' w id) :
    postorderWithin depth w id = postorderWithin depth' w id := by
  induction depth generalizing depth' id with
  | zero => exact h.elim
  | succ depth ih =>
    cases depth' with
    | zero => exact h'.elim
    | succ depth' =>
      obtain ⟨n, hn, -, hc⟩ := h
      obtain ⟨n', hn', -, hc'⟩ := h'
      obtain rfl := Option.some.inj (hn.symm.trans hn')
      rw [postorderWithin_succ hn, postorderWithin_succ hn]
      exact congrArg (· ++ [id]) (List.flatMap_congr fun c hcm => ih (hc c hcm).2 (hc' c hcm).2)

namespace Forest

lemma le_of_below (hw : w.Forest) (h : w.Below id k) : id ≤ k := by
  induction h using Relation.ReflTransGen.head_induction_on with
  | refl => exact Nat.le_refl _
  | head hp _ ih => exact Nat.le_trans ih (Nat.le_of_lt (hw.parent_lt hp))

/-- Siblings have no common descendant. -/
lemma siblings_disjoint (hw : w.Forest) (hi : w.parent? i = some p) (hj : w.parent? j = some p) (hij : i ≠ j)
    (hik : w.Below i k) : ¬w.Below j k := by
  have hunique : Relator.RightUnique fun c p => w.parent? c = some p := fun _ _ _ h h' =>
    Option.some.inj (h.symm.trans h')
  -- if one sibling were below the other, their parent would be too
  have hside : ∀ a b, w.parent? a = some p → w.parent? b = some p → a ≠ b → ¬w.Below b a := by
    intro a b ha hb hab h
    obtain e | ⟨q, hq, hqb⟩ := Relation.ReflTransGen.cases_head h
    · exact hab e
    · obtain rfl := Option.some.inj (ha.symm.trans hq)
      exact absurd (hw.le_of_below hqb) (Nat.not_le_of_lt (hw.parent_lt hb))
  intro hjk
  obtain h | h := Relation.ReflTransGen.total_of_right_unique hunique hik hjk
  · exact hside i j hi hj hij h
  · exact hside j i hj hi (Ne.symm hij) h

/-! ### The tree below a live node -/

/-- As many levels as there are nodes of the same age or younger are enough. -/
lemma intact_of_rank (hw : w.Forest) (h : w.Live id n)
    (hd : (w.nodes.rows.keys.filter (id ≤ ·)).length ≤ depth) : Intact depth w id := by
  induction depth generalizing id n with
  | zero =>
    have hmem : id ∈ w.nodes.rows.keys.filter (id ≤ ·) :=
      List.mem_filter.mpr ⟨Assoc.mem_keys_of_get? h.1, by simp⟩
    exact absurd (List.length_pos_of_mem hmem) (by omega)
  | succ depth ih =>
    refine ⟨n, h.1, h.2, fun c hcm => ⟨hw.down id n c h.1 hcm, ?_⟩⟩
    obtain ⟨hlt, m, hm, -⟩ := hw.child h.1 hcm
    apply ih hm
    have hsub : w.nodes.rows.keys.filter (c ≤ ·) =
        (w.nodes.rows.keys.filter (id ≤ ·)).filter (c ≤ ·) := by
      rw [List.filter_filter]
      refine List.filter_congr fun k _ => ?_
      by_cases hk : c ≤ k <;> simp [hk]
      omega
    have hless : ((w.nodes.rows.keys.filter (id ≤ ·)).filter (c ≤ ·)).length <
        (w.nodes.rows.keys.filter (id ≤ ·)).length :=
      List.length_filter_lt_length_iff_exists.mpr
        ⟨id, List.mem_filter.mpr ⟨Assoc.mem_keys_of_get? h.1, by simp⟩, by simpa using hlt⟩
    rw [hsub]
    omega

/-- The number of nodes bounds the depth of any tree. -/
lemma intact (hw : w.Forest) (h : w.Live id n) (hd : w.nodes.rows.size ≤ depth) : Intact depth w id := by
  refine hw.intact_of_rank h (Nat.le_trans ?_ hd)
  apply Nat.le_trans (List.length_filter_le _ _)
  simp [Assoc.keys, Assoc.size]

lemma postorder_eq_within (hw : w.Forest) (h : w.Live id n) (hd : Intact depth w id) :
    w.postorder id = postorderWithin depth w id := (hw.intact h (Nat.le_succ _)).unique hd

/-- The post-order of a tree is that of its subtrees, and then its root. -/
theorem postorder_eq (hw : w.Forest) (h : w.Live id n) :
    w.postorder id = n.children.flatMap w.postorder ++ [id] := by
  rw [postorder, postorderWithin_succ h.1]
  refine congrArg (· ++ [id]) (List.flatMap_congr fun c hcm => ?_)
  obtain ⟨-, m, hm, -⟩ := hw.child h.1 hcm
  exact (hw.postorder_eq_within hm (hw.intact hm (Nat.le_refl _))).symm

lemma self_mem_postorder (hw : w.Forest) (h : w.Live id n) : id ∈ w.postorder id := by
  rw [hw.postorder_eq h]
  simp

/-- Induction over the trees of a forest, from the leaves to the roots. -/
lemma tree_induction (hw : w.Forest) {P : Nat → Prop}
    (step : ∀ id n, w.Live id n → (∀ c ∈ n.children, P c) → P id) {id : Nat} {n : Node} (h : w.Live id n) :
    P id := by
  have hi := hw.intact h (Nat.le_refl _)
  generalize w.nodes.rows.size = depth at hi
  induction depth generalizing id n with
  | zero => exact hi.elim
  | succ depth ih =>
    refine step id n h fun c hcm => ?_
    obtain ⟨n', hn', -, hc'⟩ := hi
    obtain rfl := Option.some.inj (h.1.symm.trans hn')
    obtain ⟨-, m, hm, -⟩ := hw.child h.1 hcm
    exact ih hm (hc' c hcm).2

lemma closed (hw : w.Forest) (h : w.Live id n) :
    ∀ p ∈ w.postorder id, ∀ k, w.parent? k = some p → k ∈ w.postorder id := by
  refine hw.tree_induction (P := fun id => ∀ p ∈ w.postorder id, ∀ k, w.parent? k = some p →
    k ∈ w.postorder id) (fun id n h ih p hp k hk => ?_) h
  rw [hw.postorder_eq h] at hp ⊢
  refine List.mem_append_left _ (List.mem_flatMap.mpr ?_)
  rcases List.mem_append.mp hp with hp | hp
  · obtain ⟨c, hcm, hpc⟩ := List.mem_flatMap.mp hp
    exact ⟨c, hcm, ih c hcm p hpc k hk⟩
  · have hkc : k ∈ n.children := (hw.mem_children h.1).mpr (List.mem_singleton.mp hp ▸ hk)
    obtain ⟨-, m, hm, -⟩ := hw.child h.1 hkc
    exact ⟨k, hkc, hw.self_mem_postorder hm⟩

/-- The post-order lists what is below. -/
theorem mem_postorder (hw : w.Forest) (h : w.Live id n) : k ∈ w.postorder id ↔ w.Below id k := by
  constructor
  · refine hw.tree_induction (P := fun id => ∀ k ∈ w.postorder id, w.Below id k)
      (fun id n h ih k hk => ?_) h k
    rw [hw.postorder_eq h] at hk
    rcases List.mem_append.mp hk with hk | hk
    · obtain ⟨c, hcm, hkc⟩ := List.mem_flatMap.mp hk
      exact (ih c hcm k hkc).tail (hw.down id n c h.1 hcm)
    · rw [List.mem_singleton.mp hk]
      exact Relation.ReflTransGen.refl
  · intro hb
    induction hb using Relation.ReflTransGen.head_induction_on with
    | refl => exact hw.self_mem_postorder h
    | head hp _ ih => exact hw.closed h _ ih _ hp

/-- What is below a live node is alive. -/
lemma below_live (hw : w.Forest) (h : w.Live id n) (hb : w.Below id k) : ∃ m, w.Live k m := by
  obtain rfl | ⟨p, hp, -⟩ := Relation.ReflTransGen.cases_head hb
  · exact ⟨n, h⟩
  · obtain ⟨m, hm, hmp⟩ := parent?_eq_some.mp hp
    exact ⟨m, hw.live_of_parent hm hmp⟩

theorem nodup_postorder (hw : w.Forest) (h : w.Live id n) : (w.postorder id).Nodup := by
  refine hw.tree_induction (P := fun id => (w.postorder id).Nodup) (fun id n h ih => ?_) h
  rw [hw.postorder_eq h]
  refine List.Nodup.append ?_ (List.nodup_singleton _) ?_
  · refine List.nodup_flatMap.mpr ⟨ih, (hw.nodup_children h.1).imp_of_mem ?_⟩
    intro a b ha hb hab k hka hkb
    obtain ⟨-, m, hm, -⟩ := hw.child h.1 ha
    obtain ⟨-, m', hm', -⟩ := hw.child h.1 hb
    exact hw.siblings_disjoint (hw.down id n a h.1 ha) (hw.down id n b h.1 hb) hab
      ((hw.mem_postorder hm).mp hka) ((hw.mem_postorder hm').mp hkb)
  · intro k hk hid
    obtain ⟨c, hcm, hkc⟩ := List.mem_flatMap.mp hk
    obtain ⟨hlt, m, hm, -⟩ := hw.child h.1 hcm
    have hle := hw.le_of_below ((hw.mem_postorder hm).mp hkc)
    rw [List.mem_singleton.mp hid] at hle
    omega

/-- No node comes before one of its children. -/
theorem postorder_pairwise (hw : w.Forest) (h : w.Live id n) :
    (w.postorder id).Pairwise fun a b => w.parent? b ≠ some a := by
  refine hw.tree_induction (P := fun id => (w.postorder id).Pairwise fun a b => w.parent? b ≠ some a)
    (fun id n h ih => ?_) h
  rw [hw.postorder_eq h]
  refine List.pairwise_append.mpr ⟨?_, List.pairwise_singleton _ _, ?_⟩
  · refine List.pairwise_flatMap.mpr ⟨ih, (hw.nodup_children h.1).imp_of_mem ?_⟩
    intro a b ha hb hab x hx y hy hxy
    obtain ⟨-, m, hm, -⟩ := hw.child h.1 ha
    obtain ⟨-, m', hm', -⟩ := hw.child h.1 hb
    exact hw.siblings_disjoint (hw.down id n a h.1 ha) (hw.down id n b h.1 hb) hab
      ((hw.mem_postorder hm).mp (hw.closed hm x hx y hxy)) ((hw.mem_postorder hm').mp hy)
  · intro a ha b hb hab
    obtain ⟨c, hcm, hac⟩ := List.mem_flatMap.mp ha
    obtain ⟨hlt, m, hm, -⟩ := hw.child h.1 hcm
    have hle := hw.le_of_below ((hw.mem_postorder hm).mp hac)
    rw [List.mem_singleton.mp hb] at hab
    have := hw.parent_lt hab
    omega

/-! ### The cascade -/

/-- With fuel for as many levels as there are nodes, or more, a cascade is the release of its tree. -/
theorem releaseWithin (hw : w.Forest) (h : w.Live id n) (hd : w.nodes.rows.size ≤ depth) :
    World.releaseWithin depth id w = (true, retireAll (w.postorder id) w) := by
  have hi := hw.intact h hd
  have hp := hw.postorder_eq_within h hi
  rw [releaseWithin_eq hw.linked hi (hp ▸ hw.nodup_postorder h), hp]

theorem release (hw : w.Forest) (h : w.Live id n) :
    World.release id w = (true, retireAll (w.postorder id) w) := hw.releaseWithin h (Nat.le_succ _)

/-- The first node of a list from the bottom up is a leaf, and the rest is such a list after its release. -/
lemma retire_first {ids : List Nat} (hw : w.Forest) (hb : w.BottomUp (j :: ids)) :
    ∃ n, w.Live j n ∧ n.children = [] ∧ (w.retire j).Forest ∧ (w.retire j).BottomUp ids := by
  obtain ⟨n, hn⟩ := hb.live j List.mem_cons_self
  have hd := List.nodup_cons.mp hb.nodup
  have hpair := List.pairwise_cons.mp hb.pairwise
  have hleaf : n.children = [] := by
    refine List.eq_nil_iff_forall_not_mem.mpr fun c hc => ?_
    have hp := hw.down j n c hn.1 hc
    rcases List.mem_cons.mp (hb.closed j List.mem_cons_self c hp) with rfl | hcm
    · exact hw.linked.loopless c hp
    · exact hpair.1 c hcm hp
  have hpar : ∀ i, (w.retire j).parent? i = if j = i then none else w.parent? i :=
    parent?_retire hn.1 (hw.linked.parent_ne hn.1)
  refine ⟨n, hn, hleaf, hw.retire hn hleaf, hd.2, fun i hi => ?_, fun i hi c hc => ?_, ?_⟩
  · obtain ⟨m, hm⟩ := hb.live i (List.mem_cons_of_mem _ hi)
    have hne : j ≠ i := fun e => hd.1 (e ▸ hi)
    exact ⟨m.dropChild j, by rw [hw.get?_retire hn, if_neg hne, hm.1]; rfl, hm.2⟩
  · rw [hpar] at hc
    split at hc
    · cases hc
    · rename_i hne
      exact (List.mem_cons.mp (hb.closed i (List.mem_cons_of_mem _ hi) c hc)).resolve_left (Ne.symm hne)
  · refine hpair.2.imp fun {a b} hab e => ?_
    rw [hpar] at e
    split at e
    · cases e
    · exact hab e

/-- What the release of a leaf keeps is kept by releases from the bottom up. -/
theorem retireAll_induction {P : World → Prop} {ids : List Nat} (hw : w.Forest) (hb : w.BottomUp ids)
    (base : P w) (step : ∀ v j m, v.Forest → P v → v.Live j m → m.children = [] → P (v.retire j)) :
    (retireAll ids w).Forest ∧ P (retireAll ids w) := by
  induction ids generalizing w with
  | nil => exact ⟨hw, base⟩
  | cons j ids ih =>
    obtain ⟨n, hn, hleaf, hw', hb'⟩ := hw.retire_first hb
    rw [retireAll_cons]
    exact ih hw' hb' (step w j n hw base hn hleaf)

/-- The tree below a live node, from the bottom up. -/
lemma bottomUp (hw : w.Forest) (h : w.Live id n) : w.BottomUp (w.postorder id) :=
  ⟨hw.nodup_postorder h, fun _ hj => hw.below_live h ((hw.mem_postorder h).mp hj), hw.closed h,
    hw.postorder_pairwise h⟩

/-- What the release of a leaf keeps is kept by the release of a tree. -/
theorem release_induction {P : World → Prop} (hw : w.Forest) (h : w.Live id n) (base : P w)
    (step : ∀ v j m, v.Forest → P v → v.Live j m → m.children = [] → P (v.retire j)) :
    (w.release id).2.Forest ∧ P (w.release id).2 := by
  rw [hw.release h]
  exact hw.retireAll_induction (hw.bottomUp h) base step

/-- The release of a leaf leaves everything else in the tree where it is. -/
lemma below_retire (hw : w.Forest) (hj : w.Live j n) (hc : n.children = []) (hne : k ≠ j) (hb : w.Below id k) :
    (w.retire j).Below id k := by
  induction hb using Relation.ReflTransGen.head_induction_on with
  | refl => exact Relation.ReflTransGen.refl
  | @head c p hp _ ih =>
    have hpne : p ≠ j := fun he => by
      have hmem := (hw.mem_children hj.1).mpr (he ▸ hp)
      rw [hc] at hmem
      cases hmem
    refine Relation.ReflTransGen.head ?_ (ih hpne)
    rw [parent?_retire hj.1 (hw.linked.parent_ne hj.1), if_neg (Ne.symm hne)]
    exact hp

/-- Leaf by leaf, all that is released hangs below the root. -/
theorem release_within {P : World → Prop} (hw : w.Forest) (h : w.Live id n) (base : P w)
    (step : ∀ v j m, v.Forest → P v → v.Live j m → m.children = [] → v.Below id j → P (v.retire j)) :
    P (w.release id).2 := by
  suffices ∀ ids v, v.Forest → v.BottomUp ids → (∀ k ∈ ids, v.Below id k) → P v → P (World.retireAll ids v) by
    rw [hw.release h]
    exact this _ w hw (hw.bottomUp h) (fun k hk => (hw.mem_postorder h).mp hk) base
  intro ids
  induction ids with
  | nil => exact fun _ _ _ _ hP => hP
  | cons j ids ih =>
    intro v hv hb hbelow hP
    obtain ⟨m, hm, hleaf, hv', hb'⟩ := hv.retire_first hb
    refine ih _ hv' hb' (fun k hk => ?_) (step v j m hv hP hm hleaf (hbelow j List.mem_cons_self))
    have hne : k ≠ j := fun he => (List.nodup_cons.mp hb.nodup).1 (he ▸ hk)
    exact hv.below_retire hm hleaf hne (hbelow k (List.mem_cons_of_mem _ hk))

end Forest

/-- There is nothing to release where a node has been released. -/
lemma release_of_released (hn : w.nodes.get? id = some n) (hr : n.released = true) :
    w.release id = (false, w) := by
  simp [World.release, World.releaseWithin, hn, hr]

end World
end DbClient
