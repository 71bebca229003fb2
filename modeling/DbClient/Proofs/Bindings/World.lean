import DbClient.Proofs.Bindings.Tables
import DbClient.Proofs.Ownership.Moves

/-! Bindings: what statements that have been prepared have in common with the native library. The buffers of
all objects are there and belong to one object each, so that none goes with the object of another. -/
namespace DbClient

/-- A live node keeps the data of a statement. -/
def World.HasData (w : World) (id : Nat) (n : Node) (d : StatementData) : Prop := w.Live id n ∧ n.Keeps d

/-- The variables of statements are in order: objects have buffers of their own, and a statement that has been
prepared agrees with the native library. -/
structure Bindings (w : World) : Prop where
  memory : w.memory.Lawful
  stocked : ∀ id n d, w.HasData id n d → d.binds.Stocked w.memory
  apart : ∀ i j n m d e, w.HasData i n d → w.HasData j m e → i ≠ j → d.binds.buffers.Disjoint e.binds.buffers
  agree : ∀ id n d, w.HasData id n d → Status.prepared.rank ≤ d.status.rank →
    ∃ st, w.library.stmts.get? n.native = some st ∧ d.Agrees st

/-- The data of a statement have been there before, and neither their buffers nor the native statement have
been touched. -/
structure World.Undisturbed (w w' : World) (id : Nat) (n : Node) (d : StatementData) : Prop where
  data : ∃ m, w.HasData id m d ∧ m.native = n.native
  buffers : ∀ b ∈ d.binds.buffers, (w'.memory.get? b).map List.length = (w.memory.get? b).map List.length
  stmt : Status.prepared.rank ≤ d.status.rank → (w'.library.stmts.get? n.native).map NativeStatement.bindings =
    (w.library.stmts.get? n.native).map NativeStatement.bindings

namespace Bindings
open World Library
variable {t : Terms} {hs : Multiset Nat} {w w' : World} {id i j : Nat} {n m node : Node} {d e : StatementData}
  {l : Library}

/-- The data of one statement may change, as long as those of the others are left alone. -/
theorem update (hw : Bindings w) (memory : w'.memory.Lawful) (changed : Option Nat)
    (others : ∀ i n d, w'.HasData i n d → changed ≠ some i → w.Undisturbed w' i n d)
    (stocked : ∀ i n d, w'.HasData i n d → changed = some i → d.binds.Stocked w'.memory)
    (apart : ∀ i n d, w'.HasData i n d → changed = some i → ∀ j m e, w.HasData j m e → i ≠ j →
      d.binds.buffers.Disjoint e.binds.buffers)
    (agree : ∀ i n d, w'.HasData i n d → changed = some i → Status.prepared.rank ≤ d.status.rank →
      ∃ st, w'.library.stmts.get? n.native = some st ∧ d.Agrees st) : Bindings w' := by
  refine ⟨memory, fun i n d hd => ?_, fun i j n m d e hd he hij => ?_, fun i n d hd hr => ?_⟩
  · by_cases hi : changed = some i
    · exact stocked i n d hd hi
    · obtain ⟨⟨m, hm, -⟩, hb, -⟩ := others i n d hd hi
      exact (hw.stocked i m d hm).mono hb
  · by_cases hi : changed = some i
    · have hj : changed ≠ some j := fun h => hij (Option.some.inj (hi.symm.trans h))
      obtain ⟨⟨m', hm', -⟩, -, -⟩ := others j m e he hj
      exact apart i n d hd hi j m' e hm' hij
    · obtain ⟨⟨n', hn', -⟩, -, -⟩ := others i n d hd hi
      by_cases hj : changed = some j
      · exact (apart j m e he hj i n' d hn' (Ne.symm hij)).symm
      · obtain ⟨⟨m', hm', -⟩, -, -⟩ := others j m e he hj
        exact hw.apart i j n' m' d e hn' hm' hij
  · by_cases hi : changed = some i
    · exact agree i n d hd hi hr
    · obtain ⟨⟨m, hm, hnative⟩, -, hs⟩ := others i n d hd hi
      obtain ⟨st, hst, hag⟩ := hw.agree i m d hm hr
      obtain ⟨st', hst', hcore⟩ := exists_of_map_eq (hs hr).symm (hnative ▸ hst)
      exact ⟨st', hst', hag.congr hcore ⟨rfl, rfl⟩⟩

/-- Nothing changes for any statement. -/
lemma carry (hw : Bindings w) (memory : w'.memory.Lawful)
    (all : ∀ i n d, w'.HasData i n d → w.Undisturbed w' i n d) : Bindings w' :=
  hw.update memory none (fun i n d hd _ => all i n d hd)
    (fun _ _ _ _ h => by cases h) (fun _ _ _ _ h => by cases h)
    fun _ _ _ _ h => by cases h

/-- Another node does not share the handle of a statement that the native library knows. -/
lemma native_ne {k : HandleKind} {q : Address} (ho : Owns t w) (hl : w.Live id n)
    (hh : w.library.Has k q n.native) (hd : w.HasData i m d) (hne : i ≠ id) : n.native ≠ m.native :=
  fun he => hne (ho.unique_of_has hl hd.1 hh he.symm)

/-- What the native library knows of an object. -/
lemma entry (hw : Bindings w) (hd : w.HasData id n d) (hr : Status.prepared.rank ≤ d.status.rank) {o : BindObject}
    (ho : o ∈ d.binds.objects) :
    ∃ b, w.library.bound? n.native o.name = some b ∧ b.frame = (Bound.ofDesc o.desc).frame := by
  obtain ⟨st, hst, hag⟩ := hw.agree id n d hd hr
  obtain ⟨b, hb, hframe⟩ := hag.entry (hw.stocked id n d hd).names ho
  exact ⟨b, by rw [bound?, hst]; exact hb, hframe⟩

/-! ### Steps that leave all data alone -/

theorem quiet (hw : Bindings w) (h : Quiet w w') : Bindings w' := by
  refine hw.carry (h.memory.lawful hw.memory) fun i n d hd => ⟨⟨n, ?_, rfl⟩, fun b _ => ?_, fun _ => ?_⟩
  · rw [HasData, ← h.live]
    exact hd
  · exact h.memory.lengths hw.memory b
  · exact NativeStatement.bindings_of_core (h.library.stmts n.native)

/-- A step that changes neither what nodes keep nor buffers nor statements. -/
lemma ofNodes (hw : Bindings w)
    (back : ∀ i n d, w'.HasData i n d → ∃ m, w.HasData i m d ∧ m.native = n.native)
    (memory : w'.memory = w.memory)
    (stmts : ∀ i n d, w.HasData i n d → Status.prepared.rank ≤ d.status.rank →
      w'.library.stmts.get? n.native = w.library.stmts.get? n.native) : Bindings w' := by
  refine hw.carry (memory ▸ hw.memory) fun i n d hd => ⟨back i n d hd, fun b _ => by rw [memory], fun hr => ?_⟩
  obtain ⟨m, hm, he⟩ := back i n d hd
  rw [← he, stmts i m d hm hr]

lemma modifyNode (hw : Bindings w) {f : Node → Node}
    (hf : ∀ n, (f n).native = n.native ∧ (f n).extra = n.extra ∧ (f n).released = n.released) (id : Nat) :
    Bindings (w.modifyNode id f) := by
  refine hw.ofNodes (fun i n d hd => ?_) rfl fun _ _ _ _ _ => rfl
  obtain ⟨⟨hn, hr⟩, hx⟩ := hd
  rw [nodes_modifyNode, Table.get?_modify] at hn
  split at hn
  · obtain ⟨m, hm, rfl⟩ := Option.map_eq_some_iff.mp hn
    obtain ⟨h1, h2, h3⟩ := hf m
    exact ⟨m, ⟨⟨hm, h3.symm.trans hr⟩, h2.symm.trans hx⟩, h1.symm⟩
  · exact ⟨n, ⟨⟨hn, hr⟩, hx⟩, rfl⟩

/-- A new node keeps nothing at first. -/
theorem grow (hw : Bindings w) (hf : w.Forest) (h : Fits node w) (hx : node.extra = none)
    (stmts : ∀ i n d, w.HasData i n d → Status.prepared.rank ≤ d.status.rank →
      l.stmts.get? n.native = w.library.stmts.get? n.native) :
    Bindings (World.grow node { w with library := l }) := by
  have hv : World.Forest { w with library := l } := hf.congr hf.table hf.envs (fun _ => rfl) fun _ => rfl
  have hfits : Fits node { w with library := l } := ⟨h.fresh, h.bare, h.parent, h.env, h.unknown⟩
  refine hw.ofNodes (fun i n d hd => ?_) (memory_grow _ _) fun i n d hd hr => ?_
  · obtain ⟨⟨hn, hr⟩, hkeep⟩ := hd
    obtain ⟨-, rfl⟩ | ⟨-, m, hm, rfl⟩ := hv.grow_cases hfits hn
    · rw [Node.Keeps, hx] at hkeep
      cases hkeep
    · refine ⟨m, ⟨⟨hm, ?_⟩, ?_⟩, ?_⟩
      · simpa [apply_ite Node.released, Node.addChild] using hr
      · simpa [Node.Keeps, apply_ite Node.extra, Node.addChild] using hkeep
      · split <;> rfl
  · rw [library_grow]
    exact stmts i n d hd hr

theorem adopt (hw : Bindings w) (ho : Owns t w) (hf : w.Forest) (h : Fits node w) (hx : node.extra = none)
    {parent : Address} (hc : Created node.kind parent node.native w.library l) :
    Bindings (World.grow node { w with library := l }) := by
  refine hw.grow hf h hx fun i n d hd hr => ?_
  -- the number of the new handle has never been seen
  have hne : node.native ≠ n.native := fun e => by
    have halive := ho.alive hd.1
    rw [← e, isAlive_eq_false.mpr (ho.coherent.unborn_created hc).1] at halive
    cases halive
  rw [hc.stmts]
  split
  · rw [Assoc.get?_put, if_neg hne]
  · rfl

theorem executed {memory' : Memory} {opened : List Address} (hw : Bindings w)
    (he : Executed n.native w.memory memory' opened w.library l) (log : List Event) :
    Bindings { w with library := l, memory := memory', log := log } := by
  obtain ⟨st, sql, mode, binds, hst, -, hframes, hall⟩ := he.stmts
  refine hw.carry (he.steady.lawful hw.memory) fun i m d hd =>
    ⟨⟨m, hd, rfl⟩, fun b _ => he.steady.lengths hw.memory b, fun _ => ?_⟩
  change (l.stmts.get? m.native).map _ = _
  rw [hall]
  split
  · rename_i e
    rw [← e, hst, Option.map_some, Option.map_some, NativeStatement.bindings, hframes]
    rfl
  · rfl

/-! ### Releases -/

lemma keeps_of_mem_freed {b : Nat} (hb : b ∈ n.freed) : ∃ d, n.Keeps d ∧ b ∈ d.binds.buffers := by
  unfold Node.freed at hb
  split at hb
  · rename_i d _ hx
    exact ⟨d, hx, hb⟩
  · cases hb

/-- The release of a leaf frees no buffers but its own, and destroys no statement but its own. -/
theorem retire (hw : Bindings w) (ho : Owns t w) (hf : w.Forest) (hl : w.Live j n) : Bindings (w.retire j) := by
  obtain ⟨hlib, hmem, -⟩ := retire_around hl.1 (hf.linked.parent_ne hl.1)
  refine hw.carry (hmem ▸ hw.memory.erase_all _) fun i m d hd => ?_
  have hback : i ≠ j ∧ ∃ m', w.HasData i m' d ∧ m'.native = m.native := by
    obtain ⟨-, rfl⟩ | ⟨hne, m', hm', rfl⟩ := hf.retire_cases hl hd.1.1
    · cases hd.1.2
    · exact ⟨hne, m', ⟨⟨hm', hd.1.2⟩, hd.2⟩, rfl⟩
  obtain ⟨hne, m', hm', hnative⟩ := hback
  refine ⟨⟨m', hm', hnative⟩, fun b hb => ?_, fun hr => ?_⟩
  · rw [hmem, Table.get?_erase_all, if_neg]
    intro hfreed
    -- what the leaf frees is its own
    obtain ⟨e, he, hbe⟩ := keeps_of_mem_freed hfreed
    exact hw.apart i j m' n d e hm' ⟨hl, he⟩ hne hb hbe
  · rw [hlib]
    split
    · rename_i hown
      have hother := native_ne ho hl (ho.owned j n hl hown) hm' hne
      obtain ⟨-, hk⟩ | ⟨-, hd'⟩ := letGo_spec n.kind n.native w.library
      · rw [hk.stmts]
      · rw [hd'.stmts.2 m.native (hnative ▸ Ne.symm hother)]
    · rfl

end Bindings
end DbClient
