import DbClient.Proofs.Bindings.World
import DbClient.Proofs.Forest.Stepwise

/-! Frames: what a step can change of host variables and of the data of statements, whatever becomes of the rest.
Most steps touch neither; data that have been lost never come back. -/
namespace DbClient
namespace World
variable {w w' w'' : World} {id : Nat} {n : Node} {c d : StatementData}
  {V : Table HostVar → Table HostVar → Prop} {R : StatementData → StatementData → Prop}

/-- The variables change as `V` allows, and the data beside one node as `R` allows; a node that was there gets no
data that it did not have, and environments keep their limits. -/
structure Alters (V : Table HostVar → Table HostVar → Prop) (id : Nat) (R : StatementData → StatementData → Prop)
    (w w' : World) : Prop where
  vars : V w.vars w'.vars
  envs : w.envs.next ≤ w'.envs.next
  limits : ∀ i, i < w.envs.next → (w'.envs.get? i).map EnvState.maxBinds = (w.envs.get? i).map EnvState.maxBinds
  nodes : w.nodes.next ≤ w'.nodes.next
  data : id < w.nodes.next → ∀ n d, w'.HasData id n d → ∃ m c, w.HasData id m c ∧ R c d

namespace Alters

/-- One step after the other; the second may do more to a node that was not there at first. -/
lemma later {R' : StatementData → StatementData → Prop} [IsTrans _ V] [IsTrans _ R] (h : Alters V id R w w')
    (h' : Alters V id R' w' w'') (hR : id < w.nodes.next → ∀ c d, R' c d → R c d) : Alters V id R w w'' := by
  refine ⟨trans_of V h.vars h'.vars, Nat.le_trans h.envs h'.envs, fun i hi => ?_, Nat.le_trans h.nodes h'.nodes,
    fun hi n d hd => ?_⟩
  · exact (h'.limits i (Nat.lt_of_lt_of_le hi h.envs)).trans (h.limits i hi)
  · obtain ⟨m', c', hc', hstep'⟩ := h'.data (Nat.lt_of_lt_of_le hi h.nodes) n d hd
    obtain ⟨m, c, hc, hstep⟩ := h.data hi m' c' hc'
    exact ⟨m, c, hc, trans_of R hstep (hR hi c' d hstep')⟩

lemma trans [IsTrans _ V] [IsTrans _ R] (h : Alters V id R w w') (h' : Alters V id R w' w'') :
    Alters V id R w w'' := h.later h' fun _ _ _ hR => hR

instance [IsTrans _ V] [IsTrans _ R] : IsTrans World (Alters V id R) := ⟨fun _ _ _ => trans⟩

variable [Std.Refl V] [Std.Refl R]

/-- A step that changes neither variables nor environments nor nodes. -/
lemma of_eq (vars : w'.vars = w.vars) (envs : w'.envs = w.envs) (nodes : w'.nodes = w.nodes) : Alters V id R w w' := by
  refine ⟨vars ▸ refl_of V _, by rw [envs], fun i _ => by rw [envs], by rw [nodes], fun _ n d hd => ?_⟩
  have hold : w.HasData id n d := ⟨⟨nodes ▸ hd.1.1, hd.1.2⟩, hd.2⟩
  exact ⟨n, d, hold, refl_of R d⟩

lemma refl (w : World) : Alters V id R w w := of_eq rfl rfl rfl

instance : Std.Refl (Alters V id R) := ⟨refl⟩

/-- A node changes and comes to keep no data. -/
lemma modifyNode {f : Node → Node}
    (hf : ∀ n d, (f n).released = false → (f n).Keeps d → n.released = false ∧ n.Keeps d) (i : Nat) (w : World) :
    Alters V id R w (w.modifyNode i f) := by
  refine ⟨refl_of V _, Nat.le_refl _, fun _ _ => rfl, Nat.le_refl _, fun _ n d hd => ?_⟩
  obtain ⟨⟨hn, hr⟩, hx⟩ := hd
  rw [nodes_modifyNode, Table.get?_modify] at hn
  split at hn
  · obtain ⟨m, hm, rfl⟩ := Option.map_eq_some_iff.mp hn
    obtain ⟨hr', hx'⟩ := hf m d hr hx
    exact ⟨m, d, ⟨⟨hm, hr'⟩, hx'⟩, refl_of R d⟩
  · exact ⟨n, d, ⟨⟨hn, hr⟩, hx⟩, refl_of R d⟩

/-- The data of a statement give way to others. -/
lemma keeping {i : Nat} (hl : w.Live i n) (hx : n.Keeps c) (hR : i = id → R c d) :
    Alters V id R w (w.modifyNode i (Node.keeping d)) := by
  refine ⟨refl_of V _, Nat.le_refl _, fun _ _ => rfl, Nat.le_refl _, fun _ m e hd => ?_⟩
  obtain ⟨⟨hm, hr⟩, hkeep⟩ := hd
  rw [nodes_modifyNode, Table.get?_modify] at hm
  split at hm
  · rename_i he
    subst he
    obtain ⟨m', -, rfl⟩ := Option.map_eq_some_iff.mp hm
    obtain rfl : d = e := Extra.statement.inj (Option.some.inj hkeep)
    exact ⟨n, c, ⟨hl, hx⟩, hR rfl⟩
  · exact ⟨m, e, ⟨⟨hm, hr⟩, hkeep⟩, refl_of R e⟩

lemma modifyEnv {f : EnvState → EnvState} (hf : ∀ e, (f e).maxBinds = e.maxBinds) (env : Nat) (w : World) :
    Alters V id R w (w.modifyEnv env f) := by
  refine ⟨refl_of V _, Nat.le_refl _, fun i _ => ?_, Nat.le_refl _, fun _ n d hd => ⟨n, d, hd, refl_of R d⟩⟩
  rw [World.modifyEnv, Table.get?_modify]
  split
  · simp [Function.comp_def, hf]
  · rfl

/-- A new environment. -/
lemma addEnv (e : EnvState) (w : World) : Alters V id R w { w with envs := w.envs.add e } := by
  refine ⟨refl_of V _, Nat.le_succ _, fun i hi => ?_, Nat.le_refl _, fun _ n d hd => ⟨n, d, hd, refl_of R d⟩⟩
  rw [Table.get?_add, if_neg (Nat.ne_of_gt hi)]

/-- A new node. -/
lemma addNode [IsTrans _ V] [IsTrans _ R] (node : Node) (w : World) :
    Alters V id R w (Wrapper.addNode node w).2 := by
  have hadd : Alters V id R w { w with nodes := w.nodes.add node } := by
    refine ⟨refl_of V _, Nat.le_refl _, fun _ _ => rfl, Nat.le_succ _, fun hi n d hd => ?_⟩
    obtain ⟨⟨hn, hr⟩, hx⟩ := hd
    rw [Table.get?_add, if_neg (Nat.ne_of_gt hi)] at hn
    exact ⟨n, d, ⟨⟨hn, hr⟩, hx⟩, refl_of R d⟩
  have hstore : ∀ v, Alters V id R v ((v.modifyEnv node.env fun e =>
      { e with store := e.store.put node.native w.nodes.next }).note
        (.acquired node.kind node.native node.owned)) := fun v =>
    (modifyEnv (f := fun e => { e with store := e.store.put node.native w.nodes.next }) (fun _ => rfl) node.env v).trans
      (of_eq rfl rfl rfl)
  unfold Wrapper.addNode
  dsimp only
  split
  · rename_i p _
    exact (hadd.trans (modifyNode (f := fun n => { n with children := n.children ++ [w.nodes.next] })
      (fun _ _ hr hx => ⟨hr, hx⟩) p _)).trans (hstore _)
  · exact hadd.trans (hstore _)

/-! ### Releases -/

lemma leaveStore (i : Nat) (w : World) : Alters V id R w (w.leaveStore i) := by
  unfold World.leaveStore
  split
  · exact refl w
  · rename_i node _
    split
    · exact modifyEnv (f := fun e => { e with store := e.store.erase node.native }) (fun _ => rfl) _ w
    · exact refl w

lemma leaveNative (i : Nat) (w : World) : Alters V id R w (w.leaveNative i) := by
  unfold World.leaveNative
  split
  · exact refl w
  · split
    · dsimp only
      split <;> exact of_eq rfl rfl rfl
    · exact of_eq rfl rfl rfl

variable [IsTrans _ V] [IsTrans _ R]

lemma leaveParent (i : Nat) (w : World) : Alters V id R w (w.leaveParent i) := by
  rw [leaveParent_eq]
  split
  · exact refl w
  · rename_i p _
    exact (modifyNode (f := Node.cut) (fun _ _ hr hx => ⟨hr, hx⟩) i w).trans
      (modifyNode (f := Node.dropChild i) (fun _ _ hr hx => ⟨hr, hx⟩) p _)

lemma performAction (node : Node) (w : World) : Alters V id R w (w.performAction node) := by
  unfold World.performAction
  split
  · exact refl w
  · dsimp only
    split
    · exact (modifyEnv (f := fun e => { e with callbacks := e.callbacks.erase node.native }) (fun _ => rfl) _ w).trans
        (of_eq rfl rfl rfl)
    · exact refl w
  · split <;> exact of_eq rfl rfl rfl
  · exact of_eq rfl rfl rfl

/-- The release action can take what a node keeps, but puts nothing in its place. -/
lemma keeps_of_spent (hx : n.spent.Keeps d) : n.Keeps d := by
  unfold Node.Keeps Node.spent at hx
  dsimp only at hx
  split at hx
  · cases hx
  · split at hx
    · cases hx
    · exact hx
  · exact hx

lemma runReleaseAction (i : Nat) (w : World) : Alters V id R w (w.runReleaseAction i) := by
  unfold World.runReleaseAction
  split
  · exact refl w
  · rename_i node _
    have htrace : Alters V id R w (if node.onRelease = .nothing then w else w.trace (.action i)) := by
      split
      · exact refl w
      · exact of_eq rfl rfl rfl
    exact (htrace.trans (performAction node _)).trans
      (modifyNode (f := Node.spent) (fun _ _ hr hx => ⟨hr, keeps_of_spent hx⟩) i _)

lemma releasing : Releasing (Alters V id R) where
  mark i w := modifyNode (f := fun n => { n with released := true, children := [] }) (fun _ _ hr _ => by cases hr) i w
  cut i w := modifyNode (f := Node.cut) (fun _ _ hr hx => ⟨hr, hx⟩) i w
  parent := leaveParent
  store := leaveStore
  action := runReleaseAction
  native := leaveNative

lemma drop (h : Wrapper) (w : World) : Alters V id R w (h.drop w) :=
  releasing.drop (fun i w => modifyNode (f := Node.fewer) (fun _ _ hr hx => ⟨hr, hx⟩) i w) h w

end Alters
end World

namespace World.Alters
open Act
variable {α : Type} {w : World} {id : Nat} {V : Table HostVar → Table HostVar → Prop}
  {R : StatementData → StatementData → Prop} [Std.Refl V] [Std.Refl R]

lemma note (n : Notice) : Does (Alters V id R) (Act.note n) w := of_eq rfl rfl rfl

/-- Whatever the native library does, it touches neither variables nor data. -/
lemma native (f : Library → α × Library) : Does (Alters V id R) (Act.native f) w := of_eq rfl rfl rfl

variable [IsTrans _ V] [IsTrans _ R]

lemma require (dress : ClientError → ClientError) (f : Library → Option α × Library) :
    Does (Alters V id R) (Act.require dress f) w :=
  Does.require (of_eq rfl rfl rfl) fun _ => of_eq rfl rfl rfl

lemma optional (dress : ClientError → ClientError) (f : Library → Option α × Library) :
    Does (Alters V id R) (Act.optional dress f) w := by
  refine (native f).seq fun r _ _ => ?_
  cases r with
  | some x => exact Does.pure _
  | none =>
    refine (native Library.takeError).seq fun e _ _ => ?_
    cases e with
    | some e => exact Does.throw _
    | none => exact Does.pure _

end World.Alters
end DbClient
