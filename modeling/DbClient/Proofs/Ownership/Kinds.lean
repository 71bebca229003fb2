import DbClient.Proofs.Ownership.Lineage

/-! Kinds of nodes. A node is of one kind for good, also after it has been released. -/
namespace DbClient
namespace World
variable {w w' w'' : World} {id : Nat} {n node : Node}

/-- The kind of a node, if there is one. -/
def kind? (w : World) (id : Nat) : Option HandleKind := (w.nodes.get? id).map Node.kind

/-- All nodes are there still, of the kinds of which they were. -/
def KeepsKinds (w w' : World) : Prop := ∀ id k, w.kind? id = some k → w'.kind? id = some k

namespace KeepsKinds

@[refl] lemma refl (w : World) : KeepsKinds w w := fun _ _ h => h

lemma trans (h : KeepsKinds w w') (h' : KeepsKinds w' w'') : KeepsKinds w w'' := fun id k hk => h' id k (h id k hk)

instance : Std.Refl KeepsKinds := ⟨refl⟩

instance : IsTrans World KeepsKinds := ⟨fun _ _ _ => trans⟩

lemma of_kind (h : ∀ id, w'.kind? id = w.kind? id) : KeepsKinds w w' := fun id _ hk => (h id).trans hk

lemma of_nodes (h : w'.nodes = w.nodes) : KeepsKinds w w' := of_kind fun id => by rw [kind?, kind?, h]

lemma modifyNode {f : Node → Node} (hf : ∀ n, (f n).kind = n.kind) (id : Nat) (w : World) :
    KeepsKinds w (w.modifyNode id f) := by
  refine of_kind fun i => ?_
  rw [kind?, kind?, nodes_modifyNode, Table.get?_modify]
  split <;> simp [Function.comp_def, hf]

lemma still (h : Still w w') : KeepsKinds w w' := by
  refine of_kind fun i => ?_
  have hkind := congrArg (Option.map Node.kind) (h.nodes i)
  rwa [Option.map_map, Option.map_map] at hkind

lemma retire (hf : w.Forest) (hl : w.Live id n) : KeepsKinds w (w.retire id) := by
  refine of_kind fun i => ?_
  rw [kind?, kind?, hf.get?_retire hl]
  split
  · rename_i hi
    rw [← hi, hl.1]
    rfl
  · rw [Option.map_map]
    rfl

lemma grow (hf : w.Forest) (h : Fits node w) : KeepsKinds w (w.grow node) := by
  intro i k hk
  obtain ⟨m, hm, rfl⟩ := Option.map_eq_some_iff.mp hk
  rw [kind?, hf.get?_grow_of_get? h hm]
  split <;> rfl

lemma along : Along KeepsKinds where
  of_nodes _ _ := of_nodes
  still _ _ := still
  holders _ hf := modifyNode fun n => by rw [hf n]
  retire _ _ _ := retire
  grow _ _ := grow

end KeepsKinds
end World

open World
variable {t : Terms} {w w' : World}

theorem Path.keepsKinds {a b : Multiset Nat × World} (h : Path t a b) (hw : Sound a.1 a.2) : KeepsKinds a.2 b.2 :=
  Path.along h KeepsKinds.along hw

end DbClient
