import DbClient.Proofs.Scope.Basic

/-! What steps do to the nodes and to the environments. While a node lives it keeps the place that it was given below
its parent, and the action that is done when it is released. -/
namespace DbClient
open World

/-- The node without what can change while it lives. -/
def Node.trunk (n : Node) : Node := { n with holders := 0, children := [], extra := none }

lemma Node.of_trunk {m n : Node} (h : m.trunk = n.trunk) : m.native = n.native ∧ m.kind = n.kind ∧ m.owned = n.owned ∧
    m.released = n.released ∧ m.parent = n.parent ∧ m.onRelease = n.onRelease ∧ m.env = n.env := by
  simp only [trunk, Node.mk.injEq] at h
  exact ⟨h.1, h.2.1, h.2.2.1, h.2.2.2.2.1, h.2.2.2.2.2.1, h.2.2.2.2.2.2.2.1, h.2.2.2.2.2.2.2.2.2⟩

/-- A relation that holds across each way in which steps change nodes and environments. What is released hangs below a
node of the scope, and the callbacks of an environment may change where that is in the scope. -/
structure World.Across (S : Scope) (R : World → World → Prop) : Prop where
  same : ∀ w w', w'.nodes = w.nodes → w'.envs = w.envs → R w w'
  edit : ∀ f : Node → Node, (∀ n, (f n).trunk = n.trunk) → ∀ id w, R w (w.modifyNode id f)
  retire : ∀ w id n, w.Forest → w.Live id n → (∃ j, S.node j ∧ w.Below j id) → R w (w.retire id)
  grow : ∀ w node, w.Forest → Fits node w → R w (w.grow node)
  openEnv : ∀ w e, w.Forest → e.store = ∅ → e.callbacks = ∅ → R w { w with envs := w.envs.add e }
  enroll : S.registry → ∀ f : EnvState → EnvState, (∀ e, (f e).store = e.store) → ∀ env w, R w (w.modifyEnv env f)

namespace World.Across
variable {S : Scope} {R : World → World → Prop} {w w' : World} {id : Nat} {n : Node} {text : Prop} [IsTrans World R]

/-- A change of a node among changes of other parts. -/
lemma edit_then (hR : Across S R) {f : Node → Node} (hf : ∀ n, (f n).trunk = n.trunk) {v : World}
    (hv : v.nodes = w.nodes ∧ v.envs = w.envs) (hn : w'.nodes = (v.modifyNode id f).nodes)
    (he : w'.envs = (v.modifyNode id f).envs) : R w w' :=
  trans_of R (hR.same w v hv.1 hv.2) (trans_of R (hR.edit f hf id v) (hR.same _ w' hn he))

theorem work (hR : Across S R) (h : Work text id n w w') : R w w' := by
  cases h with
  | @keep e he => exact hR.edit_then (f := fun n => { n with extra := e }) (fun _ => rfl) ⟨rfl, rfl⟩ rfl rfl
  | tune => exact hR.edit_then (f := Node.keeping _) (fun _ => rfl) ⟨rfl, rfl⟩ rfl rfl
  | resize => exact hR.edit_then (f := Node.keeping _) (fun _ => rfl) (v := { w with library := _ }) ⟨rfl, rfl⟩ rfl rfl
  | turn => exact hR.edit_then (f := Node.keeping _) (fun _ => rfl) (v := { w with library := _ }) ⟨rfl, rfl⟩ rfl rfl
  | close => exact hR.edit_then (f := Node.keeping _) (fun _ => rfl) ⟨rfl, rfl⟩ rfl rfl
  | renew => exact hR.edit_then (f := Node.keeping _) (fun _ => rfl) (v := { w with library := _ }) ⟨rfl, rfl⟩ rfl rfl
  | @bind d plan l log =>
    exact hR.edit_then (f := Node.keeping _) (fun _ => rfl)
      (v := { (BindObject.place plan w).2 with library := l, log := log }) ⟨rfl, rfl⟩ rfl rfl
  | _ => exact hR.same _ _ rfl rfl

/-- What holds across each way of changing nodes and environments holds across each step. -/
theorem step (hR : Across S R) (hf : w.Forest) (h : StepWithin S w w') : R w w' := by
  have hstep : ∀ i, S.node i → ∀ v j m, v.Forest → R w v → v.Live j m → m.children = [] → v.Below i j →
      R w (v.retire j) := fun i hi v j m hv hc hl _ hb => trans_of R hc (hR.retire v j m hv hl ⟨i, hi, hb⟩)
  have hgrow : ∀ {node : Node} {l : Library}, Fits node w →
      R w (World.grow node { w with library := l }) := fun {node l} hfits => by
    exact trans_of R (hR.same w { w with library := l } rfl rfl)
      (hR.grow _ _ (hf.ofLibrary l) (hfits.ofLibrary l))
  cases h with
  | enroll hr hs env => exact hR.enroll hr _ hs env w
  | openEnv hc he hn => exact hR.openEnv w _ hf he hn
  | acquire hc hl => exact hR.edit (fun n => { n with holders := n.holders + 1 }) (fun _ => rfl) _ w
  | @drop id hc hn =>
    exact hf.drop_within id (hR.edit Node.fewer (fun _ => rfl) id w) fun n hl hh => hstep id (hn n hl hh)
  | release hn hl => exact hf.release_within hl (hR.same w w rfl rfl) (hstep _ hn)
  | adopt hc hl hfits => exact hgrow hfits
  | @begin node l hc hk hl hfits =>
    exact trans_of R (hgrow hfits) (hR.edit (Node.keeping .fresh) (fun _ => rfl) _ _)
  | lend hn hl hp hst hr hfits => exact hR.grow w _ hf hfits
  | work hn hl h => exact hR.work h
  | _ => exact hR.same _ _ rfl rfl

/-- It holds across all that an operation does. -/
theorem within (hR : Across S R) (hw : Standing w) (h : StepsWithin S w w') : R w w' :=
  h.induct hw (hR.same w w rfl rfl) fun _ _ hv hc hd => trans_of R hc (hR.step hv.forest hd)

end World.Across

/-- The native handle of a live node has been handed out. -/
lemma Owns.numbered {t : Terms} {w : World} {id : Nat} {n : Node} (hw : Owns t w) (hl : w.Live id n) :
    0 < n.native.number ∧ n.native.number ≤ w.library.next := by
  obtain ⟨o, ho⟩ := hw.coherent.born n.native (hw.alive hl)
  exact hw.coherent.numbered n.native o ho

lemma Owns.not_null {t : Terms} {w : World} {id : Nat} {n : Node} (hw : Owns t w) (hl : w.Live id n) :
    n.native.isNull = false := by
  have hpos := (hw.numbered hl).1
  simp [Address.isNull, Nat.ne_of_gt hpos]

/-! ### Trunks -/

namespace World
variable {S : Scope} {w w' w'' : World} {id : Nat} {n : Node}

/-- What lives has lived before, if it was there, with the same trunk. -/
structure KeepsTrunks (w w' : World) : Prop where
  there : ∀ id n, w.nodes.get? id = some n → ∃ m, w'.nodes.get? id = some m
  trunk : ∀ id n m, w.nodes.get? id = some n → w'.Live id m → w.Live id n ∧ m.trunk = n.trunk

namespace KeepsTrunks

@[refl] lemma refl (w : World) : KeepsTrunks w w := by
  refine ⟨fun _ n hn => ⟨n, hn⟩, fun id n m hn hm => ?_⟩
  obtain rfl := Option.some.inj (hn.symm.trans hm.1)
  exact ⟨hm, rfl⟩

lemma trans (h : KeepsTrunks w w') (h' : KeepsTrunks w' w'') : KeepsTrunks w w'' := by
  refine ⟨fun id n hn => ?_, fun id n m hn hm => ?_⟩
  · obtain ⟨n', hn'⟩ := h.there id n hn
    exact h'.there id n' hn'
  · obtain ⟨n', hn'⟩ := h.there id n hn
    obtain ⟨hl', ht'⟩ := h'.trunk id n' m hn' hm
    obtain ⟨hl, ht⟩ := h.trunk id n n' hn hl'
    exact ⟨hl, ht'.trans ht⟩

instance : IsTrans World KeepsTrunks := ⟨fun _ _ _ => trans⟩

/-- Rows that change in nothing but what can change. -/
lemma of_rows {g : Nat → Node → Node} (hg : ∀ i n, w.nodes.get? i = some n → w'.nodes.get? i = some (g i n))
    (ht : ∀ i n, w.nodes.get? i = some n → (g i n).released = false → (g i n).trunk = n.trunk) : KeepsTrunks w w' := by
  refine ⟨fun i n hn => ⟨_, hg i n hn⟩, fun i n m hn hm => ?_⟩
  obtain rfl := Option.some.inj ((hg i n hn).symm.trans hm.1)
  have htrunk := ht i n hn hm.2
  exact ⟨⟨hn, (Node.of_trunk htrunk).2.2.2.1.symm.trans hm.2⟩, htrunk⟩

lemma of_nodes (h : w'.nodes = w.nodes) : KeepsTrunks w w' :=
  of_rows (g := fun _ n => n) (fun i n hn => by rwa [h]) fun _ _ _ _ => rfl

lemma modifyNode {f : Node → Node} (hf : ∀ n, (f n).trunk = n.trunk) (id : Nat) (w : World) :
    KeepsTrunks w (w.modifyNode id f) := by
  refine of_rows (g := fun i n => if id = i then f n else n) (fun i n h => ?_) fun i n _ _ => ?_
  · rw [nodes_modifyNode, Table.get?_modify, h]
    split <;> rfl
  · split
    · exact hf n
    · rfl

lemma retire (hf : w.Forest) (hl : w.Live id n) : KeepsTrunks w (w.retire id) := by
  refine of_rows (g := fun i m => if id = i then n.retired else m.dropChild id) (fun i m h => ?_) fun i m _ hr => ?_
  · rw [hf.get?_retire hl, h]
    split <;> rfl
  · split at hr
    · cases hr
    · rename_i hi
      rw [if_neg hi]
      rfl

lemma grow {node : Node} (hf : w.Forest) (h : Fits node w) : KeepsTrunks w (w.grow node) := by
  refine of_rows (g := fun i m => if node.parent = some i then m.addChild w.nodes.next else m)
    (fun i m hm => hf.get?_grow_of_get? h hm) fun i m _ _ => ?_
  split <;> rfl

lemma across : Across S KeepsTrunks where
  same _ _ hn _ := of_nodes hn
  edit _ hf := modifyNode hf
  retire _ _ _ hf hl _ := retire hf hl
  grow _ _ := grow
  openEnv _ _ _ _ _ := of_nodes rfl
  enroll _ _ _ _ _ := of_nodes rfl

end KeepsTrunks
end World

theorem StepsWithin.keepsTrunks {S : Scope} {w w' : World} (hw : Standing w) (h : StepsWithin S w w') :
    KeepsTrunks w w' :=
  KeepsTrunks.across.within hw h

end DbClient
