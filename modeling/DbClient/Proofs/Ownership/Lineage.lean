import DbClient.Proofs.Ownership.World

/-! What becomes of nodes along moves: none is forgotten, none comes back to life, and while a node lives it keeps
its handle, its owner, its place below its parent and its environment. -/
namespace DbClient
namespace World
/-- A relation that holds across each way in which moves change the nodes: not at all, in what the forest does not
see, in the number of wrappers, by the release of a leaf, and by a new node. -/
structure Along (R : World → World → Prop) : Prop where
  of_nodes : ∀ w w', w'.nodes = w.nodes → R w w'
  still : ∀ w w', Still w w' → R w w'
  holders : ∀ f : Node → Node, (∀ n, f n = { n with holders := (f n).holders }) → ∀ id w, R w (w.modifyNode id f)
  retire : ∀ w id n, w.Forest → w.Live id n → R w (w.retire id)
  grow : ∀ w node, w.Forest → Fits node w → R w (w.grow node)

end World

open World in
/-- What holds across each way of changing the nodes holds across each move. -/
theorem Move.along {t : Terms} {hs hs' : Multiset Nat} {w w' : World} {R : World → World → Prop} [IsTrans World R]
    (h : Move t hs w hs' w') (hR : World.Along R) (hw : Sound hs w) : R w w' := by
  have hf := hw.forest
  have hstep : ∀ v j m, v.Forest → R w v → v.Live j m → m.children = [] → R w (v.retire j) :=
    fun v j m hv hc hl _ => trans_of R hc (hR.retire v j m hv hl)
  cases h with
  | quiet h => exact hR.of_nodes _ _ h.nodes
  | foreign _ h => exact hR.still _ _ h
  | fault => exact hR.of_nodes _ _ rfl
  | openEnv => exact hR.of_nodes _ _ rfl
  | acquire => exact hR.holders (fun n => { n with holders := n.holders + 1 }) (fun _ => rfl) _ w
  | drop id =>
    exact hf.drop_induction id (hR.holders Node.fewer (fun _ => rfl) id w) hstep
  | release hl => exact (hf.release_induction hl (hR.of_nodes w w rfl) hstep).2
  | wrap _ hfits => exact hR.grow w _ hf hfits
  | @adopt _ _ node l _ hfits =>
    have hlib : World.Forest { w with library := l } := hf.congr hf.table hf.envs (fun _ => rfl) fun _ => rfl
    have hnew : R { w with library := l } (World.grow node { w with library := l }) :=
      hR.grow _ _ hlib ⟨hfits.fresh, hfits.bare, hfits.parent, hfits.env, hfits.unknown⟩
    exact trans_of R (hR.of_nodes w { w with library := l } rfl) hnew
  | known => exact hR.of_nodes _ _ rfl
  | lend _ _ _ _ hfits => exact hR.grow w _ hf hfits
  | keep => exact hR.still _ _ ((Still.extra _ _ w).trans (.freeBuffers _ _))
  | tune => exact hR.still _ _ (.keeping _ _ w)
  | close => exact hR.still _ _ ((Still.keeping _ _ w).trans (.freeBuffers _ _))
  | @renew _ _ id _ d sql mode l =>
    have hlib : Still w { w with library := l } := .of_eq rfl rfl rfl
    exact hR.still _ _ (hlib.trans (.keeping _ id _))
  | @bind _ _ id _ d plan l log =>
    have hmade : Still w { (BindObject.place plan w).2 with library := l, log := log } := .of_eq rfl rfl rfl
    exact hR.still _ _ (hmade.trans (.rebound id d _ _))
  | execute => exact hR.of_nodes _ _ rfl

open World in
theorem Path.along {t : Terms} {a b : Multiset Nat × World} {R : World → World → Prop} [IsTrans World R]
    (h : Path t a b) (hR : World.Along R) (hw : Sound a.1 a.2) : R a.2 b.2 := by
  induction h with
  | refl => exact hR.of_nodes _ _ rfl
  | tail hp hm ih => exact trans_of R ih (hm.along hR (Path.sound hp hw))

namespace World
variable {w w' w'' : World} {hs hs' : Multiset Nat} {t : Terms} {id : Nat} {n node : Node}

/-- All nodes are still there, and those that live have lived before with the same stem. -/
structure Carries (w w' : World) : Prop where
  there : ∀ id n, w.nodes.get? id = some n → ∃ m, w'.nodes.get? id = some m
  stem : ∀ id n m, w.nodes.get? id = some n → w'.Live id m → w.Live id n ∧ m.stem = n.stem

namespace Carries

lemma of_nodes (h : w'.nodes = w.nodes) : Carries w w' := by
  refine ⟨fun id n hn => ⟨n, h ▸ hn⟩, fun id n m hn hm => ?_⟩
  have hl : w.Live id m := ⟨h ▸ hm.1, hm.2⟩
  obtain rfl := Option.some.inj (hn.symm.trans hl.1)
  exact ⟨hl, rfl⟩

lemma refl (w : World) : Carries w w := of_nodes rfl

lemma trans (h : Carries w w') (h' : Carries w' w'') : Carries w w'' := by
  refine ⟨fun id n hn => ?_, fun id n m hn hm => ?_⟩
  · obtain ⟨n', hn'⟩ := h.there id n hn
    exact h'.there id n' hn'
  · obtain ⟨n', hn'⟩ := h.there id n hn
    obtain ⟨hl', hs'⟩ := h'.stem id n' m hn' hm
    obtain ⟨hl, hs⟩ := h.stem id n n' hn hl'
    exact ⟨hl, hs'.trans hs⟩

lemma still (h : Still w w') : Carries w w' := by
  refine ⟨fun id n hn => ?_, fun id n m hn hm => ?_⟩
  · obtain ⟨m, hm, -⟩ := h.forth hn
    exact ⟨m, hm⟩
  · obtain ⟨n', hl, hcore⟩ := h.live_back hm
    obtain rfl := Option.some.inj (hn.symm.trans hl.1)
    exact ⟨hl, (congrArg Node.stem hcore).symm⟩

/-- The number of wrappers of a node has changed. -/
lemma modifyNode {f : Node → Node} (hf : ∀ n, (f n).stem = n.stem) (id : Nat) (w : World) :
    Carries w (w.modifyNode id f) := by
  have hget : ∀ i, (w.modifyNode id f).nodes.get? i = if id = i then (w.nodes.get? i).map f else w.nodes.get? i :=
    fun i => Table.get?_modify w.nodes id i f
  refine ⟨fun i n hn => ?_, fun i n m hn hm => ?_⟩
  · rw [hget, hn]
    split <;> exact ⟨_, rfl⟩
  · have hm1 := hm.1
    rw [hget, hn] at hm1
    split at hm1
    · obtain rfl := Option.some.inj hm1
      exact ⟨⟨hn, (congrArg Node.released (hf n)).symm.trans hm.2⟩, hf n⟩
    · obtain rfl := Option.some.inj hm1
      exact ⟨⟨hn, hm.2⟩, rfl⟩

lemma retire (hf : w.Forest) (hl : w.Live id n) : Carries w (w.retire id) := by
  refine ⟨fun i k hk => ?_, fun i k m hk hm => ?_⟩
  · rw [hf.get?_retire hl, hk]
    split <;> exact ⟨_, rfl⟩
  · obtain ⟨-, rfl⟩ | ⟨-, m', hm', rfl⟩ := hf.retire_cases hl hm.1
    · cases hm.2
    · obtain rfl := Option.some.inj (hk.symm.trans hm')
      exact ⟨⟨hk, hm.2⟩, rfl⟩

lemma grow (hf : w.Forest) (h : Fits node w) : Carries w (w.grow node) := by
  refine ⟨fun i n hn => ⟨_, hf.get?_grow_of_get? h hn⟩, fun i n m hn hm => ?_⟩
  rw [Live, hf.get?_grow_of_get? h hn] at hm
  obtain ⟨hm, hr⟩ := hm
  obtain rfl := Option.some.inj hm
  split at hr <;> rename_i hp
  · rw [if_pos hp]
    exact ⟨⟨hn, hr⟩, rfl⟩
  · rw [if_neg hp]
    exact ⟨⟨hn, hr⟩, rfl⟩

/-- What is released stays released. -/
lemma isNull {h : Wrapper} (hc : Carries w w') (hid : h.node = some id) (hn : w.nodes.get? id = some n)
    (hnull : h.isNull w = true) : h.isNull w' = true := by
  by_contra hlater
  obtain ⟨i, m, hi, hm⟩ := Wrapper.isNull_eq_false.mp (Bool.eq_false_iff.mpr hlater)
  obtain rfl := Option.some.inj (hid.symm.trans hi)
  have hl := (hc.stem id n m hn hm).1
  rw [Wrapper.isNull_eq_false.mpr ⟨id, n, hid, hl⟩] at hnull
  cases hnull

instance : IsTrans World Carries := ⟨fun _ _ _ => trans⟩

lemma along : Along Carries where
  of_nodes _ _ := of_nodes
  still _ _ := still
  holders _ hf := modifyNode fun n => by rw [hf n]; rfl
  retire _ _ _ := retire
  grow _ _ := grow

end Carries
end World

open World
variable {t : Terms} {hs hs' : Multiset Nat} {w w' : World}

/-- A path carries the nodes along. -/
theorem Path.carries {a b : Multiset Nat × World} (h : Path t a b) (hw : Sound a.1 a.2) : Carries a.2 b.2 :=
  Path.along h Carries.along hw

end DbClient
