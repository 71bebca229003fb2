import DbClient.Proofs.Forest.Cascade

/-! The law of the handle forest: stores, lists of children and links to parents are three views of the
same trees. -/
namespace DbClient

/-- The node without what the forest does not depend on: its wrappers, its action and what it keeps. -/
def Node.links (n : Node) : Node := { n with holders := 0, onRelease := .nothing, extra := none }

namespace World
variable {w w' : World} {id i j k p : Nat} {n m : Node}

/-- A node that has not been released. -/
def Live (w : World) (id : Nat) (n : Node) : Prop := w.nodes.get? id = some n ∧ n.released = false

/-- The views of the forest agree. Parents are older than their children, and children are listed in the
order of their age. -/
structure Forest (w : World) : Prop where
  table : w.nodes.Lawful
  envs : w.envs.Lawful
  keys : ∀ env s, w.store? env = some s → s.keys.Nodup
  known : ∀ id n, w.Live id n → w.stored? n.env n.native = some id
  stored : ∀ env h id, w.stored? env h = some id → ∃ n, w.Live id n ∧ n.env = env ∧ n.native = h
  bare : ∀ id n, w.nodes.get? id = some n → n.released = true → n.parent = none ∧ n.children = []
  up : ∀ id n p, w.nodes.get? id = some n → n.parent = some p →
    p < id ∧ ∃ m, w.Live p m ∧ id ∈ m.children
  down : ∀ id n c, w.nodes.get? id = some n → c ∈ n.children → w.parent? c = some id
  order : ∀ id n, w.nodes.get? id = some n → n.children.Pairwise (· < ·)

lemma Live.unique (h : w.Live id n) (h' : w.Live id m) : n = m := Option.some.inj (h.1.symm.trans h'.1)

lemma parent?_eq_some : w.parent? id = some p ↔ ∃ n, w.nodes.get? id = some n ∧ n.parent = some p := by
  simp [parent?, Option.bind_eq_some_iff]

namespace Forest

lemma parent_lt (hw : w.Forest) (h : w.parent? id = some p) : p < id := by
  obtain ⟨n, hn, hp⟩ := parent?_eq_some.mp h
  exact (hw.up id n p hn hp).1

lemma linked (hw : w.Forest) : w.Linked := ⟨hw.table, fun _ h => Nat.lt_irrefl _ (hw.parent_lt h)⟩

lemma live_of_parent (hw : w.Forest) (h : w.nodes.get? id = some n) (hp : n.parent = some p) : w.Live id n := by
  refine ⟨h, Bool.eq_false_iff.mpr fun hr => ?_⟩
  rw [(hw.bare id n h hr).1] at hp
  cases hp

/-- A child is a younger live node that points back. -/
lemma child (hw : w.Forest) (h : w.nodes.get? id = some n) (hc : k ∈ n.children) :
    id < k ∧ ∃ m, w.Live k m ∧ m.parent = some id := by
  have hp := hw.down id n k h hc
  obtain ⟨m, hm, hmp⟩ := parent?_eq_some.mp hp
  exact ⟨hw.parent_lt hp, m, hw.live_of_parent hm hmp, hmp⟩

lemma parent_live (hw : w.Forest) (h : w.nodes.get? id = some n) (hp : n.parent = some p) :
    ∃ m, w.Live p m ∧ id ∈ m.children := (hw.up id n p h hp).2

/-- Children and parent links are the same edges. -/
lemma mem_children (hw : w.Forest) (h : w.nodes.get? id = some n) :
    k ∈ n.children ↔ w.parent? k = some id := by
  refine ⟨hw.down id n k h, fun hp => ?_⟩
  obtain ⟨m, hm, hmp⟩ := parent?_eq_some.mp hp
  obtain ⟨n', hn', hk⟩ := hw.parent_live hm hmp
  rwa [Option.some.inj (h.symm.trans hn'.1)]

lemma nodup_children (hw : w.Forest) (h : w.nodes.get? id = some n) : n.children.Nodup :=
  (hw.order id n h).imp Nat.ne_of_lt

/-- The store knows one live node for a native handle. -/
lemma unique (hw : w.Forest) (hi : w.Live i n) (hj : w.Live j m) (he : n.env = m.env)
    (hn : n.native = m.native) : i = j :=
  Option.some.inj ((hw.known i n hi).symm.trans (he ▸ hn ▸ hw.known j m hj))

/-- What the forest does not depend on can change. -/
theorem congr (hw : w.Forest) (table : w'.nodes.Lawful) (envs : w'.envs.Lawful)
    (links : ∀ id, (w'.nodes.get? id).map Node.links = (w.nodes.get? id).map Node.links)
    (stores : ∀ env, w'.store? env = w.store? env) : w'.Forest := by
  -- each node has a counterpart with the same links, in both directions
  have back : ∀ id n, w'.nodes.get? id = some n → ∃ m, w.nodes.get? id = some m ∧ m.links = n.links :=
    fun id _ => exists_of_map_eq (links id)
  have forth : ∀ id n, w.nodes.get? id = some n → ∃ m, w'.nodes.get? id = some m ∧ m.links = n.links :=
    fun id _ => exists_of_map_eq (links id).symm
  have hstored : ∀ env h, w'.stored? env h = w.stored? env h := by simp [stored?_eq, stores]
  refine ⟨table, envs, fun env s h => hw.keys env s (stores env ▸ h), ?_, ?_, ?_, ?_, ?_, ?_⟩
  · rintro id n ⟨hn, hr⟩
    obtain ⟨m, hm, hl⟩ := back id n hn
    rw [hstored, show n.env = m.env from (congrArg Node.env hl).symm,
      show n.native = m.native from (congrArg Node.native hl).symm]
    exact hw.known id m ⟨hm, (congrArg Node.released hl).trans hr⟩
  · intro env h id hs
    obtain ⟨n, ⟨hn, hr⟩, he, hh⟩ := hw.stored env h id (hstored env h ▸ hs)
    obtain ⟨m, hm, hl⟩ := forth id n hn
    exact ⟨m, ⟨hm, (congrArg Node.released hl).trans hr⟩, (congrArg Node.env hl).trans he,
      (congrArg Node.native hl).trans hh⟩
  · intro id n hn hr
    obtain ⟨m, hm, hl⟩ := back id n hn
    obtain ⟨hp, hc⟩ := hw.bare id m hm ((congrArg Node.released hl).trans hr)
    exact ⟨(congrArg Node.parent hl).symm.trans hp, (congrArg Node.children hl).symm.trans hc⟩
  · intro id n p hn hp
    obtain ⟨m, hm, hl⟩ := back id n hn
    obtain ⟨hlt, q, ⟨hq, hr⟩, hmem⟩ := hw.up id m p hm ((congrArg Node.parent hl).trans hp)
    obtain ⟨q', hq', hl'⟩ := forth p q hq
    exact ⟨hlt, q', ⟨hq', (congrArg Node.released hl').trans hr⟩,
      (congrArg Node.children hl').symm ▸ hmem⟩
  · intro id n c hn hc
    obtain ⟨m, hm, hl⟩ := back id n hn
    obtain ⟨q, hq, hqp⟩ := parent?_eq_some.mp
      (hw.down id m c hm ((congrArg Node.children hl).symm ▸ hc))
    obtain ⟨q', hq', hl'⟩ := forth c q hq
    exact parent?_eq_some.mpr ⟨q', hq', (congrArg Node.parent hl').trans hqp⟩
  · intro id n hn
    obtain ⟨m, hm, hl⟩ := back id n hn
    exact (congrArg Node.children hl) ▸ hw.order id m hm

/-- An edit of one node that keeps its links. -/
theorem modifyNode (hw : w.Forest) {f : Node → Node} (hf : ∀ n, (f n).links = n.links) (id : Nat) :
    (w.modifyNode id f).Forest := by
  refine hw.congr (hw.table.modify _ _) hw.envs (fun i => ?_) fun _ => rfl
  rw [nodes_modifyNode, Table.get?_modify]
  split <;> simp [Function.comp_def, hf]

/-! ### Release of a leaf -/

/-- The release of a leaf touches no other node but to drop the leaf from lists of children. -/
lemma get?_retire (hw : w.Forest) (h : w.Live j n) (i : Nat) : (retire j w).nodes.get? i =
    if j = i then some n.retired else (w.nodes.get? i).map (Node.dropChild j) := by
  rw [World.get?_retire h.1 (hw.linked.parent_ne h.1)]
  split
  · rfl
  · cases hi : w.nodes.get? i with
    | none => rfl
    | some m =>
      simp only [Option.map_some, Option.some.injEq]
      split
      · rfl
      · rename_i hp
        have hj : j ∉ m.children := fun hm => hp (by
          obtain ⟨q, hq, hqp⟩ := parent?_eq_some.mp (hw.down i m j hi hm)
          rwa [Option.some.inj (h.1.symm.trans hq)])
        have hall : m.children.filter (· ≠ j) = m.children :=
          List.filter_eq_self.mpr fun c hc => by
            have hcj : c ≠ j := fun e => hj (e ▸ hc)
            simpa using hcj
        rw [Node.dropChild, hall]

lemma retire_cases (hw : w.Forest) (h : w.Live j n) (hi : (retire j w).nodes.get? i = some m) :
    i = j ∧ m = n.retired ∨ i ≠ j ∧ ∃ m', w.nodes.get? i = some m' ∧ m = m'.dropChild j := by
  rw [hw.get?_retire h] at hi
  split at hi
  · rename_i e
    exact .inl ⟨e.symm, (Option.some.inj hi).symm⟩
  · rename_i e
    obtain ⟨m', hm', rfl⟩ := Option.map_eq_some_iff.mp hi
    exact .inr ⟨Ne.symm e, m', hm', rfl⟩

lemma stored?_retire (hw : w.Forest) (h : w.Live j n) (env : Nat) (a : Address) :
    (retire j w).stored? env a = if w.stored? env a = some j then none else w.stored? env a := by
  have hkey : w.stored? env a = some j ↔
      (n.env = env ∧ w.stored? env n.native = some j) ∧ n.native = a := by
    constructor
    · intro hs
      obtain ⟨n', hn', rfl, rfl⟩ := hw.stored env a j hs
      rw [h.unique hn']
      exact ⟨⟨rfl, h.unique hn' ▸ hs⟩, rfl⟩
    · rintro ⟨⟨-, hs⟩, rfl⟩
      exact hs
  rw [stored?_eq, store?_retire h.1]
  by_cases hcond : n.env = env ∧ w.stored? env n.native = some j
  · rw [if_pos hcond]
    cases hs : w.store? env with
    | none => simp [stored?_eq, hs]
    | some s =>
      by_cases ha : n.native = a
      · rw [if_pos (hkey.mpr ⟨hcond, ha⟩)]
        simp [ha]
      · rw [if_neg fun hc => ha (hkey.mp hc).2]
        simp [stored?_eq, hs, ha]
  · rw [if_neg hcond, if_neg fun hc => hcond (hkey.mp hc).1, stored?_eq]

theorem retire (hw : w.Forest) (h : w.Live j n) (hc : n.children = []) : (w.retire j).Forest where
  table := lawful_retire hw.table j
  envs := envs_lawful_retire hw.envs j
  keys env s hs := by
    rw [store?_retire h.1] at hs
    split at hs
    · obtain ⟨s', hs', rfl⟩ := Option.map_eq_some_iff.mp hs
      exact Assoc.nodup_erase (hw.keys env s' hs') _
    · exact hw.keys env s hs
  known i m hm := by
    obtain ⟨-, rfl⟩ | ⟨hne, m', hm', rfl⟩ := hw.retire_cases h hm.1
    · cases hm.2
    · have hk : w.stored? m'.env m'.native = some i := hw.known i m' ⟨hm', hm.2⟩
      change (w.retire j).stored? m'.env m'.native = some i
      rw [hw.stored?_retire h, hk, if_neg fun e => hne (Option.some.inj e)]
  stored env a i hs := by
    rw [hw.stored?_retire h] at hs
    split at hs
    · cases hs
    · rename_i hne
      obtain ⟨m, hm, henv, hnat⟩ := hw.stored env a i hs
      have hij : j ≠ i := fun e => hne (e ▸ hs)
      refine ⟨m.dropChild j, ⟨?_, hm.2⟩, henv, hnat⟩
      rw [hw.get?_retire h, if_neg hij, hm.1]
      rfl
  bare i m hm hr := by
    obtain ⟨-, rfl⟩ | ⟨-, m', hm', rfl⟩ := hw.retire_cases h hm
    · exact ⟨rfl, rfl⟩
    · obtain ⟨hp, hb⟩ := hw.bare i m' hm' hr
      exact ⟨hp, by simp [Node.dropChild, hb]⟩
  up i m p hm hp := by
    obtain ⟨-, rfl⟩ | ⟨hne, m', hm', rfl⟩ := hw.retire_cases h hm
    · cases hp
    · obtain ⟨hlt, q, hq, hmem⟩ := hw.up i m' p hm' hp
      have hpj : j ≠ p := by
        rintro rfl
        rw [h.unique hq] at hc
        rw [hc] at hmem
        cases hmem
      refine ⟨hlt, q.dropChild j, ⟨?_, hq.2⟩, List.mem_filter.mpr ⟨hmem, by simpa using hne⟩⟩
      rw [hw.get?_retire h, if_neg hpj, hq.1]
      rfl
  down i m c hm hmem := by
    obtain ⟨-, rfl⟩ | ⟨hne, m', hm', rfl⟩ := hw.retire_cases h hm
    · cases hmem
    · obtain ⟨hmem, hcj⟩ := List.mem_filter.mp hmem
      have hjc : j ≠ c := by simpa using Ne.symm (of_decide_eq_true hcj)
      rw [parent?_retire h.1 (hw.linked.parent_ne h.1), if_neg hjc]
      exact hw.down i m' c hm' hmem
  order i m hm := by
    obtain ⟨-, rfl⟩ | ⟨-, m', hm', rfl⟩ := hw.retire_cases h hm
    · exact List.Pairwise.nil
    · exact (hw.order i m' hm').filter _

end Forest
end World
end DbClient
