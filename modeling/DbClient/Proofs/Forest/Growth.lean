import DbClient.Handle.Wrapper
import DbClient.Proofs.Forest.Invariant

/-! The growth of the forest: new environments and new nodes. -/
namespace DbClient

/-- The node with one more child behind the others. -/
def Node.addChild (c : Nat) (n : Node) : Node := { n with children := n.children ++ [c] }

namespace World
variable {w : World} {node m : Node} {i p : Nat}

/-- The world with one more node. -/
def grow (node : Node) (w : World) : World := (Wrapper.addNode node w).2

@[simp] lemma library_grow (node : Node) (w : World) : (w.grow node).library = w.library := by
  unfold grow Wrapper.addNode
  dsimp only
  split <;> rfl

@[simp] lemma memory_grow (node : Node) (w : World) : (w.grow node).memory = w.memory := by
  unfold grow Wrapper.addNode
  dsimp only
  split <;> rfl

@[simp] lemma releases_grow (node : Node) (w : World) : (w.grow node).releases = w.releases := by
  unfold grow Wrapper.addNode
  dsimp only
  split <;> rfl

lemma get?_grow (hp : node.parent ≠ some w.nodes.next) (i : Nat) : (w.grow node).nodes.get? i =
    if w.nodes.next = i then some node
    else (w.nodes.get? i).map fun m => if node.parent = some i then m.addChild w.nodes.next else m := by
  unfold grow Wrapper.addNode
  cases he : node.parent with
  | none =>
    change (w.nodes.add node).get? i = _
    simp
  | some p =>
    have hne : p ≠ w.nodes.next := fun e => hp (e ▸ he)
    change ((w.nodes.add node).modify p (Node.addChild w.nodes.next)).get? i = _
    rw [Table.get?_modify, Table.get?_add]
    by_cases hi : w.nodes.next = i
    · subst hi
      simp [hne]
    · by_cases hpi : p = i <;> simp [hi, hpi]

lemma lawful_grow (h : w.nodes.Lawful) (node : Node) : (w.grow node).nodes.Lawful := by
  unfold grow Wrapper.addNode
  dsimp only
  split
  · exact (h.add _).modify _ _
  · exact h.add _

lemma envs_lawful_grow (h : w.envs.Lawful) (node : Node) : (w.grow node).envs.Lawful := by
  unfold grow Wrapper.addNode
  dsimp only
  split <;> exact h.modify _ _

lemma store?_grow (node : Node) (w : World) (env : Nat) : (w.grow node).store? env =
    if node.env = env then (w.store? env).map fun s => s.put node.native w.nodes.next
    else w.store? env := by
  unfold grow Wrapper.addNode
  dsimp only
  split
  all_goals
    change World.store? (modifyEnv _ _ _) _ = _
    rw [store?_modifyEnv]
    split
    · simp only [store?, Option.map_map, Function.comp_def, envs_modifyNode]
    · rfl

/-- What a new node has to be like: it is alive and bare, its parent is alive, its environment exists, and
the store of that does not know its native handle. -/
structure Fits (node : Node) (w : World) : Prop where
  fresh : node.released = false
  bare : node.children = []
  parent : ∀ p, node.parent = some p → ∃ m, w.Live p m
  env : (w.store? node.env).isSome
  unknown : w.stored? node.env node.native = none

namespace Forest

lemma not_next (hw : w.Forest) (h : w.nodes.get? i = some m) : w.nodes.next ≠ i :=
  (Nat.ne_of_lt (hw.table.handed i m h)).symm

lemma parent_ne_next (hw : w.Forest) (h : Fits node w) : node.parent ≠ some w.nodes.next := fun e => by
  obtain ⟨m, hm⟩ := h.parent _ e
  exact hw.not_next hm.1 rfl

lemma grow_cases (hw : w.Forest) (h : Fits node w) (hi : (w.grow node).nodes.get? i = some m) :
    i = w.nodes.next ∧ m = node ∨ i ≠ w.nodes.next ∧ ∃ m', w.nodes.get? i = some m' ∧
      m = if node.parent = some i then m'.addChild w.nodes.next else m' := by
  rw [get?_grow (hw.parent_ne_next h)] at hi
  split at hi
  · rename_i e
    exact .inl ⟨e.symm, (Option.some.inj hi).symm⟩
  · rename_i e
    obtain ⟨m', hm', rfl⟩ := Option.map_eq_some_iff.mp hi
    exact .inr ⟨Ne.symm e, m', hm', rfl⟩

/-- A node stays what it is, but for its children. -/
lemma get?_grow_of_get? (hw : w.Forest) (h : Fits node w) (hi : w.nodes.get? i = some m) :
    (w.grow node).nodes.get? i =
      some (if node.parent = some i then m.addChild w.nodes.next else m) := by
  rw [get?_grow (hw.parent_ne_next h), if_neg (hw.not_next hi), hi]
  rfl

lemma get?_grow_next (hw : w.Forest) (h : Fits node w) :
    (w.grow node).nodes.get? w.nodes.next = some node := by
  rw [get?_grow (hw.parent_ne_next h), if_pos rfl]

lemma parent?_grow (hw : w.Forest) (h : Fits node w) (i : Nat) :
    (w.grow node).parent? i = if w.nodes.next = i then node.parent else w.parent? i := by
  rw [parent?, get?_grow (hw.parent_ne_next h)]
  split
  · rfl
  · cases hi : w.nodes.get? i with
    | none => simp [parent?, hi]
    | some m =>
      simp only [parent?, hi, Option.map_some, Option.bind_some]
      split <;> rfl

lemma stored?_grow (h : Fits node w) (env : Nat) (a : Address) : (w.grow node).stored? env a =
    if node.env = env ∧ node.native = a then some w.nodes.next else w.stored? env a := by
  rw [stored?_eq, store?_grow]
  by_cases he : node.env = env
  · subst he
    obtain ⟨s, hs⟩ := Option.isSome_iff_exists.mp h.env
    simp [stored?_eq, hs]
  · simp [he, stored?_eq]

theorem grow (hw : w.Forest) (h : Fits node w) : (w.grow node).Forest where
  table := lawful_grow hw.table node
  envs := envs_lawful_grow hw.envs node
  keys env s hs := by
    rw [store?_grow] at hs
    split at hs
    · obtain ⟨s', hs', rfl⟩ := Option.map_eq_some_iff.mp hs
      exact Assoc.nodup_put (hw.keys env s' hs') _ _
    · exact hw.keys env s hs
  known i m hm := by
    obtain ⟨rfl, rfl⟩ | ⟨hne, m', hm', rfl⟩ := hw.grow_cases h hm.1
    · rw [stored?_grow h, if_pos ⟨rfl, rfl⟩]
    · have hl : w.Live i m' := ⟨hm', by simpa [apply_ite Node.released, Node.addChild] using hm.2⟩
      have hk := hw.known i m' hl
      have hold : ¬(node.env = m'.env ∧ node.native = m'.native) := fun e => by
        rw [← e.1, ← e.2, h.unknown] at hk
        cases hk
      split
      all_goals
        change (w.grow node).stored? m'.env m'.native = some i
        rw [stored?_grow h, if_neg hold, hk]
  stored env a i hs := by
    rw [stored?_grow h] at hs
    split at hs
    · rename_i he
      obtain rfl := Option.some.inj hs
      exact ⟨node, ⟨hw.get?_grow_next h, h.fresh⟩, he⟩
    · obtain ⟨m, hm, henv, hnat⟩ := hw.stored env a i hs
      refine ⟨_, ⟨hw.get?_grow_of_get? h hm.1, ?_⟩, ?_⟩
      · split
        · exact hm.2
        · exact hm.2
      · split
        · exact ⟨henv, hnat⟩
        · exact ⟨henv, hnat⟩
  bare i m hm hr := by
    obtain ⟨rfl, rfl⟩ | ⟨hne, m', hm', rfl⟩ := hw.grow_cases h hm
    · rw [h.fresh] at hr
      cases hr
    · split at hr
      · rename_i hp
        obtain ⟨q, hq⟩ := h.parent _ hp
        rw [Option.some.inj (hm'.symm.trans hq.1)] at hr
        exact absurd (hq.2.symm.trans hr) Bool.false_ne_true
      · rename_i hp
        rw [if_neg hp]
        exact hw.bare i m' hm' hr
  up i m p hm hp := by
    obtain ⟨rfl, rfl⟩ | ⟨hne, m', hm', rfl⟩ := hw.grow_cases h hm
    · obtain ⟨q, hq⟩ := h.parent p hp
      refine ⟨hw.table.handed p q hq.1, _, ⟨hw.get?_grow_of_get? h hq.1, ?_⟩, ?_⟩
      · rw [if_pos hp]
        exact hq.2
      · rw [if_pos hp]
        exact List.mem_append_right _ (List.mem_singleton_self _)
    · have hp' : m'.parent = some p := by
        split at hp <;> exact hp
      obtain ⟨hlt, q, hq, hmem⟩ := hw.up i m' p hm' hp'
      refine ⟨hlt, _, ⟨hw.get?_grow_of_get? h hq.1, ?_⟩, ?_⟩
      · split <;> exact hq.2
      · split
        · exact List.mem_append_left _ hmem
        · exact hmem
  down i m c hm hc := by
    rw [hw.parent?_grow h]
    obtain ⟨rfl, rfl⟩ | ⟨hne, m', hm', rfl⟩ := hw.grow_cases h hm
    · rw [h.bare] at hc
      cases hc
    · have hold : c ∈ m'.children → (if w.nodes.next = c then node.parent else w.parent? c) = some i := by
        intro hcm
        obtain ⟨q, hq, -⟩ := parent?_eq_some.mp (hw.down i m' c hm' hcm)
        rw [if_neg (hw.not_next hq)]
        exact hw.down i m' c hm' hcm
      split at hc
      · rename_i hp
        rcases List.mem_append.mp hc with hc | hc
        · exact hold hc
        · rw [if_pos (List.mem_singleton.mp hc).symm, hp]
      · exact hold hc
  order i m hm := by
    obtain ⟨rfl, rfl⟩ | ⟨hne, m', hm', rfl⟩ := hw.grow_cases h hm
    · rw [h.bare]
      exact List.Pairwise.nil
    · split
      · refine List.pairwise_append.mpr ⟨hw.order i m' hm', List.pairwise_singleton _ _, ?_⟩
        intro c hc d hd
        obtain ⟨-, q, hq, -⟩ := hw.child hm' hc
        rw [List.mem_singleton.mp hd]
        exact hw.table.handed c q hq.1
      · exact hw.order i m' hm'

/-- A new environment has an empty store. -/
theorem openEnv (hw : w.Forest) {e : EnvState} (he : e.store = ∅) :
    World.Forest { w with envs := w.envs.add e } := by
  have hstore : ∀ env, World.store? { w with envs := w.envs.add e } env =
      if w.envs.next = env then some ∅ else w.store? env := by
    intro env
    unfold store?
    rw [Table.get?_add]
    split
    · rw [Option.map_some, he]
    · rfl
  have hstored : ∀ env a, World.stored? { w with envs := w.envs.add e } env a =
      if w.envs.next = env then none else w.stored? env a := by
    intro env a
    rw [stored?_eq, hstore]
    split
    · rfl
    · exact (stored?_eq _ _ _).symm
  have hnone : ∀ a, w.stored? w.envs.next a = none := by
    intro a
    rw [stored?, hw.envs.get?_next]
    rfl
  refine ⟨hw.table, hw.envs.add e, ?_, ?_, ?_, hw.bare, hw.up, hw.down, hw.order⟩
  · intro env s hs
    rw [hstore] at hs
    split at hs
    · exact Option.some.inj hs ▸ List.nodup_nil
    · exact hw.keys env s hs
  · intro id n hn
    have hk := hw.known id n hn
    rw [hstored, if_neg fun e => ?_]
    · exact hk
    · rw [← e, hnone] at hk
      cases hk
  · intro env a id hs
    rw [hstored] at hs
    split at hs
    · cases hs
    · exact hw.stored env a id hs

end Forest
end World
end DbClient
