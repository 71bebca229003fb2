import DbClient.Proofs.Forest.Retire

/-! A cascade is a sequence of single releases in post-order: the world after the release of a tree is
the world after releasing its nodes one by one, children before parents and siblings in their order. -/
namespace DbClient
namespace World

/-- The nodes of the tree below a node in post-order, down to a depth. -/
def postorderWithin : Nat → World → Nat → List Nat
  | 0, _, _ => []
  | depth + 1, w, id =>
    ((w.nodes.get? id).map fun n => n.children.flatMap (postorderWithin depth w) ++ [id]).getD []

/-- The tree below a node is whole within a depth: no node of it has been released, and the links to
children are also links to parents. -/
def Intact : Nat → World → Nat → Prop
  | 0, _, _ => False
  | depth + 1, w, id => ∃ n, w.nodes.get? id = some n ∧ n.released = false ∧
      ∀ c ∈ n.children, w.parent? c = some id ∧ Intact depth w c

/-- Releases nodes one by one. -/
def retireAll (ids : List Nat) (w : World) : World := ids.foldl (fun w id => retire id w) w

variable {w w' : World} {depth id k : Nat}

@[simp] lemma retireAll_nil (w : World) : retireAll [] w = w := rfl

@[simp] lemma retireAll_cons (id : Nat) (ids : List Nat) (w : World) :
    retireAll (id :: ids) w = retireAll ids (retire id w) := rfl

lemma retireAll_append (l m : List Nat) (w : World) :
    retireAll (l ++ m) w = retireAll m (retireAll l w) := List.foldl_append

lemma postorderWithin_succ {n : Node} (h : w.nodes.get? id = some n) :
    postorderWithin (depth + 1) w id = n.children.flatMap (postorderWithin depth w) ++ [id] := by
  simp [postorderWithin, h]

lemma Intact.self_mem (h : Intact depth w id) : id ∈ postorderWithin depth w id := by
  cases depth with
  | zero => exact h.elim
  | succ depth =>
    obtain ⟨n, hn, -⟩ := h
    rw [postorderWithin_succ hn]
    simp

lemma Intact.of_mem (h : Intact depth w id) (hk : k ∈ postorderWithin depth w id) :
    (∃ n, w.nodes.get? k = some n) ∧
      (k = id ∨ ∃ p ∈ postorderWithin depth w id, w.parent? k = some p) := by
  induction depth generalizing id k with
  | zero => exact h.elim
  | succ depth ih =>
    obtain ⟨n, hn, -, hc⟩ := h
    rw [postorderWithin_succ hn] at hk ⊢
    rcases List.mem_append.mp hk with hk | hk
    · obtain ⟨c, hcm, hkc⟩ := List.mem_flatMap.mp hk
      obtain ⟨hex, rfl | ⟨p, hp, hkp⟩⟩ := ih (hc c hcm).2 hkc
      · exact ⟨hex, .inr ⟨id, by simp, (hc k hcm).1⟩⟩
      · exact ⟨hex, .inr ⟨p, List.mem_append_left _ (List.mem_flatMap.mpr ⟨c, hcm, hp⟩), hkp⟩⟩
    · rw [List.mem_singleton.mp hk]
      exact ⟨⟨n, hn⟩, .inl rfl⟩

/-- The tree below a node depends on its own nodes only. -/
lemma Intact.congr (h : Intact depth w id)
    (same : ∀ j ∈ postorderWithin depth w id, w'.nodes.get? j = w.nodes.get? j) :
    Intact depth w' id ∧ postorderWithin depth w' id = postorderWithin depth w id := by
  induction depth generalizing id with
  | zero => exact h.elim
  | succ depth ih =>
    obtain ⟨n, hn, hr, hc⟩ := h
    rw [postorderWithin_succ hn] at same ⊢
    have hn' : w'.nodes.get? id = some n := by rw [same id (by simp), hn]
    have step : ∀ c ∈ n.children, Intact depth w' c ∧
        postorderWithin depth w' c = postorderWithin depth w c := fun c hcm =>
      ih (hc c hcm).2 fun j hj =>
        same j (List.mem_append_left _ (List.mem_flatMap.mpr ⟨c, hcm, hj⟩))
    constructor
    · refine ⟨n, hn', hr, fun c hcm => ⟨?_, (step c hcm).1⟩⟩
      have hmem : c ∈ n.children.flatMap (postorderWithin depth w) ++ [id] :=
        List.mem_append_left _ (List.mem_flatMap.mpr ⟨c, hcm, (hc c hcm).2.self_mem⟩)
      rw [parent?, same c hmem]
      exact (hc c hcm).1
    · rw [postorderWithin_succ hn']
      congr 1
      exact List.flatMap_congr fun c hcm => (step c hcm).2

/-! ### Runs of single releases -/

/-- A run of single releases commutes with an edit of a node outside of it. -/
lemma retireAll_modifyNode {ids : List Nat} {f : Node → Node} (hk : k ∉ ids)
    (hf : ∀ j n, f (n.dropChild j) = (f n).dropChild j) (w : World) :
    retireAll ids (w.modifyNode k f) = (retireAll ids w).modifyNode k f := by
  induction ids generalizing w with
  | nil => rfl
  | cons j ids ih =>
    rw [List.mem_cons, not_or] at hk
    rw [retireAll_cons, retireAll_cons, retire_modifyNode (Ne.symm hk.1) (hf j), ih hk.2]

/-- The table of nodes is lawful and no node is its own parent. -/
structure Linked (w : World) : Prop where
  table : w.nodes.Lawful
  loopless : ∀ j, w.parent? j ≠ some j

/-- A node that has no children, or is not there. -/
def Childless (w : World) (id : Nat) : Prop := ∀ n, w.nodes.get? id = some n → n.children = []

lemma Linked.parent_ne {n : Node} (hw : w.Linked) (hn : w.nodes.get? id = some n) : n.parent ≠ some id := by
  simpa [parent?, hn] using hw.loopless id

lemma Linked.modifyNode (hw : w.Linked) {f : Node → Node}
    (hf : ∀ n, (f n).parent = n.parent ∨ (f n).parent = none) : (w.modifyNode id f).Linked where
  table := hw.table.modify _ _
  loopless j h := by
    simp only [parent?, nodes_modifyNode, Table.get?_modify] at h
    split at h
    · obtain ⟨m, hm, hp⟩ := Option.bind_eq_some_iff.mp h
      obtain ⟨n, hn, rfl⟩ := Option.map_eq_some_iff.mp hm
      rcases hf n with e | e <;> rw [e] at hp
      · exact hw.parent_ne hn hp
      · cases hp
    · exact hw.loopless j h

lemma Linked.retire {n : Node} (hw : w.Linked) (hn : w.nodes.get? id = some n) : (w.retire id).Linked where
  table := lawful_retire hw.table id
  loopless j := by
    rw [parent?_retire hn (hw.parent_ne hn)]
    split
    · simp
    · exact hw.loopless j

lemma Childless.retire {n : Node} (h : w.Childless k) (hw : w.Linked) (hn : w.nodes.get? id = some n) :
    (w.retire id).Childless k := by
  intro m hm
  rw [get?_retire hn (hw.parent_ne hn)] at hm
  split at hm
  · cases hm
    rfl
  · obtain ⟨m', hm', rfl⟩ := Option.map_eq_some_iff.mp hm
    split <;> simp [h m' hm', Node.dropChild]

/-- A run of single releases leaves a node alone that is neither in it nor a parent of one that is. -/
lemma get?_retireAll {ids : List Nat} (hw : w.Linked) (hex : ∀ j ∈ ids, ∃ n, w.nodes.get? j = some n)
    (hk : k ∉ ids) (hp : ∀ j ∈ ids, w.parent? j ≠ some k) :
    (retireAll ids w).nodes.get? k = w.nodes.get? k := by
  induction ids generalizing w with
  | nil => rfl
  | cons j ids ih =>
    obtain ⟨n, hn⟩ := hex j List.mem_cons_self
    have hjk : j ≠ k := fun e => hk (e ▸ List.mem_cons_self)
    have hnp : n.parent ≠ some k := by simpa [parent?, hn] using hp j List.mem_cons_self
    have hget := get?_retire hn (hw.parent_ne hn)
    rw [retireAll_cons, ih (hw.retire hn)]
    · rw [hget, if_neg hjk]
      simp [hnp]
    · intro i hi
      obtain ⟨m, hm⟩ := hex i (List.mem_cons_of_mem _ hi)
      rw [hget, hm]
      split
      · exact ⟨_, rfl⟩
      · exact ⟨_, rfl⟩
    · exact fun h => hk (List.mem_cons_of_mem _ h)
    · intro i hi
      rw [parent?_retire hn (hw.parent_ne hn)]
      split
      · simp
      · exact hp i (List.mem_cons_of_mem _ hi)

lemma parent?_retireAll {ids : List Nat} (hw : w.Linked)
    (hex : ∀ j ∈ ids, ∃ n, w.nodes.get? j = some n) (hk : k ∉ ids) :
    (retireAll ids w).parent? k = w.parent? k := by
  induction ids generalizing w with
  | nil => rfl
  | cons j ids ih =>
    obtain ⟨n, hn⟩ := hex j List.mem_cons_self
    rw [List.mem_cons, not_or] at hk
    rw [retireAll_cons, ih (hw.retire hn) _ hk.2, parent?_retire hn (hw.parent_ne hn),
      if_neg (Ne.symm hk.1)]
    intro i hi
    obtain ⟨m, hm⟩ := hex i (List.mem_cons_of_mem _ hi)
    rw [get?_retire hn (hw.parent_ne hn), hm]
    split <;> exact ⟨_, rfl⟩

lemma Linked.retireAll {ids : List Nat} (hw : w.Linked) (hex : ∀ j ∈ ids, ∃ n, w.nodes.get? j = some n) :
    (w.retireAll ids).Linked ∧ ∀ k, w.Childless k → (w.retireAll ids).Childless k := by
  induction ids generalizing w with
  | nil => exact ⟨hw, fun _ h => h⟩
  | cons j ids ih =>
    obtain ⟨n, hn⟩ := hex j List.mem_cons_self
    have hget := get?_retire hn (hw.parent_ne hn)
    have step := ih (hw.retire hn) fun i hi => by
      obtain ⟨m, hm⟩ := hex i (List.mem_cons_of_mem _ hi)
      rw [hget, hm]
      split <;> exact ⟨_, rfl⟩
    exact ⟨step.1, fun k h => step.2 k (h.retire hw hn)⟩

/-! ### Cascades -/

/-- The releases of siblings, whose parent has been marked and lets them go one by one. -/
def releaseAll (depth : Nat) (ids : List Nat) (w : World) : World :=
  ids.foldl (fun w c => (releaseWithin depth c (w.modifyNode c Node.cut)).2) w

lemma releaseWithin_succ {n : Node} (hn : w.nodes.get? id = some n) (hr : n.released = false) :
    releaseWithin (depth + 1) id w = (true, leaveNative id (runReleaseAction id (leaveStore id
      (leaveParent id (releaseAll depth n.children (w.markReleased id)))))) := by
  simp only [releaseWithin, hn, hr]
  rfl

/-- A parent without children does not notice that a child is cut off before it is released. -/
lemma retire_cut (hw : w.Linked) {p : Nat} (hp : w.parent? id = some p) (hc : w.Childless p) :
    retire id (w.modifyNode id Node.cut) = retire id w := by
  have hpid : p ≠ id := fun e => hw.loopless id (e ▸ hp)
  have hcut : markReleased id (w.modifyNode id Node.cut) = (markReleased id w).modifyNode id Node.cut :=
    modifyNode_comm _ _ _ _ _ fun _ _ => rfl
  have hnone : ((markReleased id w).modifyNode id Node.cut).parent? id = none := by
    cases h : w.nodes.get? id <;> simp [parent?, markReleased, h, Node.cut]
  have hsome : (markReleased id w).parent? id = some p := by
    cases h : w.nodes.get? id with
    | none => simp [parent?, h] at hp
    | some n => simpa [parent?, markReleased, h] using hp
  have hleave : leaveParent id (markReleased id (w.modifyNode id Node.cut)) =
      leaveParent id (markReleased id w) := by
    rw [hcut, leaveParent_eq, leaveParent_eq, hnone, hsome]
    have htable : (((markReleased id w).modifyNode id Node.cut).nodes).Lawful :=
      (hw.table.modify _ _).modify _ _
    have hsame := htable.modify_eq_self (k := p) (f := Node.dropChild id) fun n h => by
      have hn : w.nodes.get? p = some n := by simpa [markReleased, Ne.symm hpid] using h
      have hempty := hc n hn
      cases n
      simp_all [Node.dropChild]
    change _ = ({ (markReleased id w).modifyNode id Node.cut with
      nodes := ((markReleased id w).modifyNode id Node.cut).nodes.modify p (Node.dropChild id) } : World)
    rw [hsame]
  rw [retire, retire, hleave]

/-- The children of an intact node, after it has been marked. -/
lemma Intact.mark {n : Node}
    (hc : ∀ c ∈ n.children, w.parent? c = some id ∧ Intact depth w c) {f : Node → Node}
    (hid : id ∉ n.children.flatMap (postorderWithin depth w)) (c : Nat) (hcm : c ∈ n.children) :
    (w.modifyNode id f).parent? c = some id ∧ Intact depth (w.modifyNode id f) c ∧
      postorderWithin depth (w.modifyNode id f) c = postorderWithin depth w c := by
  have hsame : ∀ j ∈ postorderWithin depth w c, (w.modifyNode id f).nodes.get? j = w.nodes.get? j := by
    intro j hj
    have hne : j ≠ id := fun e => hid (List.mem_flatMap.mpr ⟨c, hcm, e ▸ hj⟩)
    exact get?_modifyNode_of_ne hne f w
  refine ⟨?_, (hc c hcm).2.congr hsame⟩
  rw [parent?, hsame c (hc c hcm).2.self_mem]
  exact (hc c hcm).1

/-- What the cascades of siblings amount to, as far as cascades of some depth are known. -/
def SiblingsRetire (depth : Nat) : Prop := ∀ (w : World) (p : Nat) (cs : List Nat), w.Linked →
  w.Childless p → (∀ c ∈ cs, w.parent? c = some p ∧ Intact depth w c) →
  (cs.flatMap (postorderWithin depth w)).Nodup → p ∉ cs.flatMap (postorderWithin depth w) →
  releaseAll depth cs w = retireAll (cs.flatMap (postorderWithin depth w)) w

/-- The cascade from a node, given those from its children. -/
lemma SiblingsRetire.tree (hs : SiblingsRetire depth) (hw : w.Linked) (h : Intact (depth + 1) w id)
    (hd : (postorderWithin (depth + 1) w id).Nodup) :
    releaseWithin (depth + 1) id w = (true, retireAll (postorderWithin (depth + 1) w id) w) := by
  obtain ⟨n, hn, hr, hc⟩ := h
  rw [postorderWithin_succ hn] at hd ⊢
  have hid : id ∉ n.children.flatMap (postorderWithin depth w) := fun hm =>
    List.disjoint_of_nodup_append hd hm (List.mem_singleton_self _)
  have hm := Intact.mark hc (f := fun n => { n with released := true, children := [] }) hid
  have hlist : n.children.flatMap (postorderWithin depth (w.markReleased id)) =
      n.children.flatMap (postorderWithin depth w) := List.flatMap_congr fun c hcm => (hm c hcm).2.2
  have hmarked : (w.markReleased id).Linked := hw.modifyNode fun _ => .inl rfl
  have hbare : (w.markReleased id).Childless id := by
    intro m hmm
    simp only [markReleased, nodes_modifyNode, Table.get?_modify, if_true, hn, Option.map_some,
      Option.some.injEq] at hmm
    exact hmm ▸ rfl
  have hbelow := hs (w.markReleased id) id n.children hmarked hbare
    (fun c hcm => ⟨(hm c hcm).1, (hm c hcm).2.1⟩) (hlist ▸ hd.of_append_left) (hlist ▸ hid)
  rw [releaseWithin_succ hn hr, hbelow, hlist, markReleased,
    retireAll_modifyNode hid (fun _ _ => rfl) w, retireAll_append]
  rfl

/-- A child that is cut off first is released like one that is not. -/
lemma SiblingsRetire.cut (hs : SiblingsRetire depth) (hw : w.Linked) {p : Nat} (hp : w.parent? id = some p)
    (hc : w.Childless p) (h : Intact (depth + 1) w id) (hd : (postorderWithin (depth + 1) w id).Nodup) :
    releaseWithin (depth + 1) id (w.modifyNode id Node.cut) =
      (true, retireAll (postorderWithin (depth + 1) w id) w) := by
  obtain ⟨n, hn, hr, hch⟩ := h
  have hpost : postorderWithin (depth + 1) w id = n.children.flatMap (postorderWithin depth w) ++ [id] :=
    postorderWithin_succ hn
  have hid : id ∉ n.children.flatMap (postorderWithin depth w) := fun hm =>
    List.disjoint_of_nodup_append (hpost ▸ hd) hm (List.mem_singleton_self _)
  have hm := Intact.mark hch (f := Node.cut) hid
  have hn' : (w.modifyNode id Node.cut).nodes.get? id = some n.cut := by simp [hn]
  have hcut : (w.modifyNode id Node.cut).Linked := hw.modifyNode fun _ => .inr rfl
  have hlist : postorderWithin (depth + 1) (w.modifyNode id Node.cut) id =
      postorderWithin (depth + 1) w id := by
    rw [postorderWithin_succ hn', hpost]
    exact congrArg (· ++ [id]) (List.flatMap_congr fun c hcm => (hm c hcm).2.2)
  have hex : ∀ j ∈ n.children.flatMap (postorderWithin depth w), ∃ m, w.nodes.get? j = some m := by
    intro j hj
    obtain ⟨c, hcm, hjc⟩ := List.mem_flatMap.mp hj
    exact ((hch c hcm).2.of_mem hjc).1
  have hbelow := hw.retireAll hex
  rw [hs.tree hcut ⟨n.cut, hn', hr, fun c hcm => ⟨(hm c hcm).1, (hm c hcm).2.1⟩⟩ (hlist ▸ hd), hlist, hpost,
    retireAll_append, retireAll_append, retireAll_modifyNode hid (fun _ _ => rfl)]
  have hpar := (parent?_retireAll hw hex hid).trans hp
  exact congrArg (Prod.mk true) (retire_cut hbelow.1 hpar (hbelow.2 p hc))

theorem siblingsRetire (depth : Nat) : SiblingsRetire depth := by
  induction depth with
  | zero =>
    intro w p cs _ _ hc _ _
    cases cs with
    | nil => rfl
    | cons c cs => exact (hc c List.mem_cons_self).2.elim
  | succ depth ih =>
    intro w p cs hw hp hc hd hpo
    induction cs generalizing w with
    | nil => rfl
    | cons c cs ihc =>
      obtain ⟨hcp, hci⟩ := hc c List.mem_cons_self
      rw [List.flatMap_cons] at hd hpo ⊢
      rw [List.mem_append, not_or] at hpo
      have hfirst := ih.cut hw hcp hp hci hd.of_append_left
      -- what is released with the first sibling is no part of the trees of the others
      have hex : ∀ j ∈ postorderWithin (depth + 1) w c, ∃ n, w.nodes.get? j = some n := fun j hj =>
        (hci.of_mem hj).1
      have hframe : ∀ j, j ≠ p → j ∉ postorderWithin (depth + 1) w c →
          (retireAll (postorderWithin (depth + 1) w c) w).nodes.get? j = w.nodes.get? j := by
        intro j hjp hj
        refine get?_retireAll hw hex hj fun i hi e => ?_
        obtain rfl | ⟨q, hq, hiq⟩ := (hci.of_mem hi).2
        · exact hjp (Option.some.inj (e.symm.trans hcp))
        · exact hj (Option.some.inj (e.symm.trans hiq) ▸ hq)
      have hother : ∀ d ∈ cs, ∀ j ∈ postorderWithin (depth + 1) w d,
          (retireAll (postorderWithin (depth + 1) w c) w).nodes.get? j = w.nodes.get? j := by
        intro d hdm j hj
        have hjm := List.mem_flatMap.mpr ⟨d, hdm, hj⟩
        exact hframe j (fun e => hpo.2 (e ▸ hjm)) fun h => List.disjoint_of_nodup_append hd h hjm
      have hrest : ∀ d ∈ cs, Intact (depth + 1) (retireAll (postorderWithin (depth + 1) w c) w) d ∧
          postorderWithin (depth + 1) (retireAll (postorderWithin (depth + 1) w c) w) d =
            postorderWithin (depth + 1) w d := fun d hdm =>
        (hc d (List.mem_cons_of_mem _ hdm)).2.congr (hother d hdm)
      have hlist : cs.flatMap (postorderWithin (depth + 1) (retireAll (postorderWithin (depth + 1) w c) w)) =
          cs.flatMap (postorderWithin (depth + 1) w) := List.flatMap_congr fun d hdm => (hrest d hdm).2
      have hbelow := hw.retireAll hex
      have hstep := ihc (retireAll (postorderWithin (depth + 1) w c) w) hbelow.1 (hbelow.2 p hp) ?_
        (hlist ▸ hd.of_append_right) (hlist ▸ hpo.2)
      · rw [retireAll_append, ← hlist, ← hstep]
        change releaseAll (depth + 1) cs (releaseWithin (depth + 1) c (w.modifyNode c Node.cut)).2 = _
        rw [hfirst]
      · intro d hdm
        obtain ⟨hdp, hdi⟩ := hc d (List.mem_cons_of_mem _ hdm)
        refine ⟨?_, (hrest d hdm).1⟩
        rw [parent?, hother d hdm d hdi.self_mem]
        exact hdp

/-- The cascade from a node is the release of its tree, one node after the other in post-order. -/
theorem releaseWithin_eq (hw : w.Linked) (h : Intact depth w id) (hd : (postorderWithin depth w id).Nodup) :
    releaseWithin depth id w = (true, retireAll (postorderWithin depth w id) w) := by
  cases depth with
  | zero => exact h.elim
  | succ depth => exact (siblingsRetire depth).tree hw h hd

end World
end DbClient
