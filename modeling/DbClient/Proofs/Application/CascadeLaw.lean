import DbClient.Proofs.Application.Runs

/-! The law of releases in any application: what goes when a node is released, in which order, and what stays
as it is. A release is forced, or that of the last wrapper; children are released by a condition. -/
namespace DbClient
namespace World
variable {w w' : World} {id k : Nat} {n m : Node} {roots : List Nat}

/-- The trees below some roots go, and nothing else. -/
structure Cascade (roots : List Nat) (w w' : World) : Prop where
  /-- The nodes below the roots are released, and no others. -/
  live : ∀ k, (∃ m, w'.Live k m) ↔ (∃ m, w.Live k m) ∧ ∀ r ∈ roots, ¬w.Below r k
  /-- Whatever wrapper of them is left, it leads to the null handle. -/
  null : ∀ (h : Wrapper) k, h.node = some k → (∃ r ∈ roots, w.Below r k) → h.native w' = .null
  /-- All other nodes stay as they were, but that the roots leave the list of their parent. -/
  outside : ∀ k m, w.nodes.get? k = some m → (∀ r ∈ roots, ¬w.Below r k) →
    w'.nodes.get? k = some { m with children := m.children.filter (· ∉ roots) }
  /-- Stores keep the entries of all other nodes, and have no more. -/
  stored : ∀ env h k, w'.stored? env h = some k ↔ w.stored? env h = some k ∧ ∀ r ∈ roots, ¬w.Below r k
  /-- The steps of the release go through each tree in post-order. -/
  releases : w'.releases = w.releases ++ (roots.flatMap w.postorder).flatMap w.steps
  /-- So do the calls for destruction, and no other primitive is called. -/
  calls : w'.calls = w.calls ++ (roots.flatMap w.postorder).flatMap w.destruction

/-- To release what hangs below roots, siblings or one alone, is a cascade. -/
lemma Forest.cascade (hw : w.Forest) (hb : w.BottomUp (roots.flatMap w.postorder))
    (hr : ∀ r ∈ roots, ∃ m, w.Live r m) :
    Cascade roots w (World.retireAll (roots.flatMap w.postorder) w) := by
  have hmem : ∀ k, k ∈ roots.flatMap w.postorder ↔ ∃ r ∈ roots, w.Below r k := by
    intro k
    rw [List.mem_flatMap]
    refine exists_congr fun r => and_congr_right fun hrm => ?_
    obtain ⟨m, hm⟩ := hr r hrm
    exact hw.mem_postorder hm
  have hout : ∀ k, k ∉ roots.flatMap w.postorder ↔ ∀ r ∈ roots, ¬w.Below r k := by
    intro k
    rw [hmem]
    simp only [not_exists, not_and]
  have hlive : ∀ k, (∃ m, (World.retireAll (roots.flatMap w.postorder) w).Live k m) ↔
      (∃ m, w.Live k m) ∧ ∀ r ∈ roots, ¬w.Below r k := by
    intro k
    rw [← hout]
    constructor
    · rintro ⟨m, hm⟩
      obtain ⟨hk, m', hm', -⟩ := (hw.live_retireAll hb).mp hm
      exact ⟨⟨m', hm'⟩, hk⟩
    · rintro ⟨⟨m, hm⟩, hk⟩
      exact ⟨_, (hw.live_retireAll hb).mpr ⟨hk, m, hm, rfl⟩⟩
  refine ⟨hlive, fun h k hk hbelow => ?_, fun k m hm hk => ?_, fun env h k => ?_, hw.releases_retireAll hb,
    hw.calls_retireAll hb⟩
  · unfold Wrapper.native
    cases hl : h.liveNode? (World.retireAll (roots.flatMap w.postorder) w) with
    | none => rfl
    | some p =>
      obtain ⟨id, m⟩ := p
      obtain ⟨hid, hm⟩ := Wrapper.liveNode?_eq_some.mp hl
      obtain rfl := Option.some.inj (hk.symm.trans hid)
      obtain ⟨r, hrm, hrk⟩ := hbelow
      exact absurd hrk (((hlive k).mp ⟨m, hm⟩).2 r hrm)
  · rw [hw.get?_retireAll hb, if_neg ((hout k).mpr hk), hm, Option.map_some, Node.without]
    -- a child of a node outside is inside only if it is a root
    have hchild : ∀ c ∈ m.children, (c ∈ roots.flatMap w.postorder ↔ c ∈ roots) := by
      intro c hc
      constructor
      · intro hci
        obtain ⟨r, hrm, hrc⟩ := (hmem c).mp hci
        obtain rfl | ⟨q, hq, hqr⟩ := Relation.ReflTransGen.cases_head hrc
        · exact hrm
        · obtain rfl := Option.some.inj ((hw.down k m c hm hc).symm.trans hq)
          exact absurd hqr (hk r hrm)
      · exact fun hcr => (hmem c).mpr ⟨c, hcr, Relation.ReflTransGen.refl⟩
    have hfilter : m.children.filter (· ∉ roots.flatMap w.postorder) = m.children.filter (· ∉ roots) :=
      List.filter_congr fun c hc => by simp only [hchild c hc]
    rw [hfilter]
  · rw [hw.stored?_retireAll hb, Option.filter_eq_some_iff, decide_eq_true_eq, hout]

/-! ### The ways in which nodes are released -/

lemma Forest.cascade_release (hw : w.Forest) (hl : w.Live id n) : Cascade [id] w (w.release id).2 := by
  have hb := hw.bottomUp hl
  have hone : [id].flatMap w.postorder = w.postorder id := by simp
  rw [hw.release hl, ← hone]
  refine hw.cascade (hone.symm ▸ hb) fun r hr => ?_
  obtain rfl := List.mem_singleton.mp hr
  exact ⟨n, hl⟩

lemma Forest.cascade_releaseChildren {h : Wrapper} (hw : w.Forest) (hid : h.node = some id) (hl : w.Live id n)
    (p : Node → Bool) : (h.releaseChildren p w).1 = (n.children.filter fun c => (w.nodes.get? c).any p).length ∧
      Cascade (n.children.filter fun c => (w.nodes.get? c).any p) w (h.releaseChildren p w).2 := by
  obtain ⟨heq, hb⟩ := Wrapper.releaseChildren_eq hw hid hl p
  rw [heq]
  refine ⟨rfl, hw.cascade hb fun r hr => ?_⟩
  obtain ⟨-, m, hm, -⟩ := hw.child hl.1 (List.mem_of_mem_filter hr)
  exact ⟨m, hm⟩

/-- What does not count wrappers does not see that there is one less. -/
lemma map_get?_fewer {β : Type} {f : Node → β} (hf : ∀ n, f n.fewer = f n) (id k : Nat) (w : World) :
    ((w.modifyNode id Node.fewer).nodes.get? k).map f = (w.nodes.get? k).map f := by
  rw [nodes_modifyNode, Table.get?_modify]
  split
  · rw [Option.map_map]
    exact congrArg (fun g => (w.nodes.get? k).map g) (funext hf)
  · rfl

/-- A change of counters and no more is not seen by what a cascade goes by. -/
lemma views_fewer (id : Nat) (w : World) : (w.modifyNode id Node.fewer).parent? = w.parent? ∧
    (w.modifyNode id Node.fewer).postorder = w.postorder ∧ (w.modifyNode id Node.fewer).steps = w.steps ∧
    (w.modifyNode id Node.fewer).destruction = w.destruction := by
  have hwithin : ∀ depth, postorderWithin depth (w.modifyNode id Node.fewer) = postorderWithin depth w := by
    intro depth
    induction depth with
    | zero => rfl
    | succ depth ih =>
      funext k
      rw [postorderWithin, postorderWithin, ih, map_get?_fewer fun _ => rfl]
  have hsize : (w.modifyNode id Node.fewer).nodes.rows.size = w.nodes.rows.size := List.length_map _
  refine ⟨funext fun k => ?_, funext fun k => ?_, funext fun k => ?_, funext fun k => ?_⟩
  · have hjoin : ∀ o : Option Node, o.bind Node.parent = (o.map Node.parent).join := by
      rintro (_ | _) <;> rfl
    rw [parent?, parent?, hjoin, hjoin, map_get?_fewer fun _ => rfl]
  · rw [postorder, hsize, hwithin]
    rfl
  · rw [steps, map_get?_fewer fun _ => rfl]
    rfl
  · rw [destruction, map_get?_fewer fun _ => rfl]
    rfl

/-- The last wrapper of a node releases it. -/
lemma Forest.cascade_drop (hw : w.Forest) (hl : w.Live id n) (hh : n.holders = 1) :
    Cascade [id] w (Wrapper.drop ⟨some id⟩ w) := by
  have hdrop : Wrapper.drop ⟨some id⟩ w = (World.release id (w.modifyNode id Node.fewer)).2 := by
    rw [drop_eq hl.1, if_pos hh]
  have hget := fun k => get?_fewer id k w
  have hv := hw.fewer id
  have hlv : (w.modifyNode id Node.fewer).Live id n.fewer := ⟨by rw [hget, if_pos rfl, hl.1]; rfl, hl.2⟩
  obtain ⟨hparent, hpost, hsteps, hdestroy⟩ := views_fewer id w
  have hbelow : (w.modifyNode id Node.fewer).Below = w.Below := by
    unfold Below
    rw [hparent]
  have hlive : ∀ k, k ≠ id → ∀ m, (w.modifyNode id Node.fewer).Live k m ↔ w.Live k m := by
    intro k hk m
    rw [Live, hget, if_neg (Ne.symm hk)]
    rfl
  obtain ⟨c1, c2, c3, c4, c5, c6⟩ := hv.cascade_release hlv
  rw [hbelow] at c1 c2 c3 c4
  rw [hpost, hsteps] at c5
  rw [hpost, hdestroy] at c6
  rw [hdrop]
  refine ⟨fun k => ?_, c2, fun k m hm hk => ?_, c4, c5, c6⟩
  · rw [c1]
    by_cases hk : k = id
    · subst hk
      have hself : ¬∀ r ∈ [k], ¬w.Below r k := fun h =>
        h k (List.mem_singleton_self k) Relation.ReflTransGen.refl
      simp only [hself, and_false]
    · simp only [hlive k hk]
  · have hne : id ≠ k := by
      rintro rfl
      exact hk id (List.mem_singleton_self id) Relation.ReflTransGen.refl
    exact c3 k m (by rw [hget, if_neg hne, hm]) hk

end World

namespace Application
open World

/-- What holds of releases in a world. -/
structure CascadeLaw (w : World) : Prop where
  /-- The recursion comes to its end: with more levels than there are nodes it makes no difference how many. -/
  complete : ∀ id n depth, w.Live id n → w.nodes.rows.size ≤ depth →
    World.releaseWithin depth id w = w.release id
  /-- A live node is released with its tree by force, -/
  release : ∀ id n, w.Live id n → (w.release id).1 = true ∧ Cascade [id] w (w.release id).2
  /-- or when its last wrapper is dropped. -/
  drop : ∀ id n, w.Live id n → n.holders = 1 → Cascade [id] w (Wrapper.drop ⟨some id⟩ w)
  /-- A wrapper of a released node is dropped without any effect but on its counter. -/
  leftover : ∀ id n, w.nodes.get? id = some n → n.released = true →
    Wrapper.drop ⟨some id⟩ w = w.modifyNode id Node.fewer
  /-- Those children are released, with their trees, that satisfy a condition, and they are counted. -/
  releaseChildren : ∀ (h : Wrapper) id n p, h.node = some id → w.Live id n →
    (h.releaseChildren p w).1 = (n.children.filter fun c => (w.nodes.get? c).any p).length ∧
      Cascade (n.children.filter fun c => (w.nodes.get? c).any p) w (h.releaseChildren p w).2
  /-- The post-order of a tree lists what is below its root, each node once, -/
  mem_postorder : ∀ id n k, w.Live id n → (k ∈ w.postorder id ↔ w.Below id k)
  nodup_postorder : ∀ id n, w.Live id n → (w.postorder id).Nodup
  /-- descendants first, with siblings in the order in which they were acquired. -/
  postorder_eq : ∀ id n, w.Live id n → w.postorder id = n.children.flatMap w.postorder ++ [id]
  siblings : ∀ id n, w.Live id n → n.children.Pairwise (· < ·)
  /-- A node runs its action, if it has one, and is destroyed after that, if it owns its native handle. -/
  steps : ∀ id n, w.Live id n → w.steps id =
    (if n.onRelease = .nothing then [] else [.action id]) ++ if n.owned then [.destroy id] else []
  /-- No action has run twice so far, and no node has been destroyed twice. -/
  once : w.releases.Nodup

variable {t : Terms} {a : Application}

/-- The law of releases holds whenever an application is between two operations. -/
theorem Reachable.cascadeLaw (h : Reachable t a) : CascadeLaw a.world := by
  have hs := h.fit.sound
  have hw := hs.forest
  exact {
    complete := fun id n depth hl hd => (hw.releaseWithin hl hd).trans (hw.release hl).symm
    release := fun id n hl => ⟨by rw [hw.release hl], hw.cascade_release hl⟩
    drop := fun id n hl hh => hw.cascade_drop hl hh
    leftover := fun id n hn hr => drop_leftover hn hr
    releaseChildren := fun h id n p hid hl => hw.cascade_releaseChildren hid hl p
    mem_postorder := fun id n k hl => hw.mem_postorder hl
    nodup_postorder := fun id n hl => hw.nodup_postorder hl
    postorder_eq := fun id n hl => hw.postorder_eq hl
    siblings := fun id n hl => hw.order id n hl.1
    steps := fun id n hl => by
      rw [World.steps, hl.1]
      rfl
    once := hs.traced.nodup }

/-- A root with two children and a grandchild that is not owned: the release of the root goes through them in
post-order. -/
theorem cascadeLaw_of_family :
    let w := (play [.createEnvironment default,
      .wrap 0 ⟨7⟩ .connection (some (.environment ⟨0, ⟨some 0⟩⟩)) true (.report "first" none),
      .wrap 0 ⟨9⟩ .resultset (some (.handle ⟨some 1⟩)) false (.report "below" none),
      .wrap 0 ⟨11⟩ .connection (some (.environment ⟨0, ⟨some 0⟩⟩)) true .nothing] start).world
    CascadeLaw w ∧ (w.release 0).2.releases = [.action 2, .action 1, .destroy 1, .destroy 3, .destroy 0] := by
  refine ⟨Reachable.cascadeLaw (t := ⟨true, false⟩) (runs_play ?_), by decide +kernel⟩
  exact ⟨trivial, by decide +kernel, rfl, by decide +kernel, rfl, by decide +kernel, rfl, by decide +kernel,
    trivial⟩

end Application
end DbClient
