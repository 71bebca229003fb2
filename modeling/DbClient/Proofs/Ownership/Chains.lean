import DbClient.Proofs.Ownership.Moves

/-! The chains of resultsets that statements list. No resultset stands twice in a chain, and each of them has a cursor
for as long as it is listed. -/
namespace DbClient
namespace Library
variable {l l' : Library} {known : Address → Prop} {a h p stmt : Address} {kind : HandleKind} {opened : List Address}

/-- Resultsets that a statement lists are all different and have cursors. -/
def Chains (l : Library) : Prop := ∀ s, (l.listed s).Nodup ∧ ∀ r ∈ l.listed s, (l.rsets.get? r).isSome

namespace Chains

/-- A step that leaves lists and cursors alone. -/
lemma of_eq (hl : l.Chains) (listed : ∀ s, l'.listed s = l.listed s)
    (rsets : ∀ r, (l'.rsets.get? r).isSome = (l.rsets.get? r).isSome) : l'.Chains := by
  intro s
  rw [listed]
  exact ⟨(hl s).1, fun r hr => (rsets r).trans ((hl s).2 r hr)⟩

lemma quiet (hl : l.Chains) (h : Quiet known l l') : l'.Chains := hl.of_eq h.same.listed h.rsets

lemma created (hl : l.Chains) (hc : l.Coherent) (h : Created kind p a l l') : l'.Chains :=
  hl.of_eq (hc.listed_created h) fun r => by rw [h.rsets]

lemma boundTo {d : BindDesc} (hl : l.Chains) (h : BoundTo stmt d l l') : l'.Chains :=
  hl.of_eq h.same.listed fun r => by rw [h.rsets]

/-- One chain gives way to another; the cursors of the others are not touched. -/
lemma renewed (hl : l.Chains) (hc : l.Coherent) (h : Renewed stmt opened l l') (hnodup : opened.Nodup)
    (hnew : ∀ r ∈ opened, (l'.rsets.get? r).isSome)
    (hold : ∀ r, r ∉ l.listed stmt → (l.rsets.get? r).isSome → (l'.rsets.get? r).isSome) : l'.Chains := by
  intro s
  rw [h.listed]
  split
  · exact ⟨hnodup, hnew⟩
  · rename_i hne
    exact ⟨(hl s).1, fun r hr => hold r (fun hm => hne (hc.listed_unique hm hr)) ((hl s).2 r hr)⟩

lemma prepared {sql : String} {mode : PrepareMode} (hl : l.Chains) (hc : l.Coherent)
    (h : Prepared stmt sql mode l l') : l'.Chains := by
  refine hl.renewed hc h.renewed List.nodup_nil (by simp) fun r hr hs => ?_
  rw [h.rsets, if_neg hr]
  exact hs

lemma executed {memory memory' : Memory} (hl : l.Chains) (hc : l.Coherent)
    (h : Executed stmt memory memory' opened l l') : l'.Chains := by
  refine hl.renewed hc h.renewed h.nodup (fun r hr => ?_) fun r hr hs => ?_
  · rw [h.rsets, if_pos hr]
  · rw [h.rsets, if_neg hr, hs]
    exact ite_self _

/-- A handle is destroyed, with its chain if it is a statement. -/
lemma destroyed (hl : l.Chains) (hc : l.Coherent) (h : Destroyed kind a l l') : l'.Chains := by
  intro s
  rw [Coherent.listed_destroyed h]
  split
  · exact ⟨List.nodup_nil, by simp⟩
  · rename_i hne
    refine ⟨(hl s).1, fun r hr => ?_⟩
    rw [h.rsets, if_neg fun hm => hne (hc.listed_unique hr hm)]
    exact (hl s).2 r hr

lemma letGo (hl : l.Chains) (hc : l.Coherent) (kind : HandleKind) (a : Address) : (l.letGo kind a).Chains := by
  obtain ⟨-, hk⟩ | ⟨-, hd⟩ := letGo_spec kind a l
  · exact hl.of_eq hk.same.listed fun r => by rw [hk.rsets]
  · exact hl.destroyed hc hd

end Chains

/-- What a handle is let go of leaves of another statement. -/
lemma chain_letGo (hc : l.Coherent) (kind : HandleKind) (hne : stmt ≠ a) :
    (l.letGo kind a).stmts.get? stmt = l.stmts.get? stmt ∧
      ∀ r ∈ l.listed stmt, (l.letGo kind a).rsets.get? r = l.rsets.get? r := by
  obtain ⟨-, hk⟩ | ⟨-, hd⟩ := letGo_spec kind a l
  · exact ⟨by rw [hk.stmts], fun r _ => by rw [hk.rsets]⟩
  · refine ⟨hd.stmts.2 stmt hne, fun r hr => ?_⟩
    rw [hd.rsets, if_neg fun hm => hne (hc.listed_unique hr hm)]

/-- What a statement lists is not null. -/
lemma Coherent.not_null (hc : l.Coherent) {r : Address} (hr : r ∈ l.listed stmt) : r.isNull = false := by
  have hborn := hc.numbered r _ ((hc.listed stmt r).mp hr).2
  obtain ⟨number⟩ := r
  simpa [Address.isNull] using Nat.ne_of_gt hborn.1

end Library

open World
variable {t : Terms} {hs hs' : Multiset Nat} {w w' : World} {id : Nat} {n : Node}

lemma Owns.chains_retire (hw : Owns t w) (hc : w.library.Chains) (hf : w.Forest) (hl : w.Live id n) :
    (w.retire id).library.Chains := by
  rw [(retire_around hl.1 (hf.linked.parent_ne hl.1)).1]
  split
  · exact hc.letGo hw.coherent _ _
  · exact hc

/-- Each move of a client that wraps no handle itself keeps chains in order. -/
theorem Move.chains (ht : t.foreign = false) (h : Move t hs w hs' w') (hs : Sound hs w) (hw : Owns t w)
    (hc : w.library.Chains) : w'.library.Chains := by
  have hforeign : t.foreign ≠ true := by simp [ht]
  have hf := hs.forest
  have hstep : ∀ v j m, v.Forest → Owns t v ∧ v.library.Chains → v.Live j m → m.children = [] →
      Owns t (v.retire j) ∧ (v.retire j).library.Chains :=
    fun v j m hv hp hl hleaf => ⟨hp.1.retire hv hl hleaf, hp.1.chains_retire hp.2 hv hl⟩
  cases h with
  | quiet h => exact hc.quiet h.library
  | foreign h => exact absurd h hforeign
  | fault => exact hc.of_eq (fun _ => rfl) fun _ => rfl
  | openEnv => exact hc
  | acquire => exact hc
  | drop id =>
    have hfewer : Owns t (w.modifyNode id Node.fewer) := hw.modifyNode (f := Node.fewer) (fun _ => rfl) id
    exact (hf.drop_induction (P := fun v => Owns t v ∧ v.library.Chains) id ⟨hfewer, hc⟩ hstep).2
  | release hl => exact (hf.release_induction (P := fun v => Owns t v ∧ v.library.Chains) hl ⟨hw, hc⟩ hstep).2.2
  | wrap h => exact absurd h hforeign
  | adopt hcreate =>
    rw [library_grow]
    exact hc.created hw.coherent (Library.created hcreate)
  | known hcreate hstored =>
    rw [hw.stranger hf (Library.created hcreate)] at hstored
    cases hstored
  | lend =>
    rw [library_grow]
    exact hc
  | keep => exact hc
  | tune => exact hc
  | close => exact hc
  | renew _ _ _ hp => exact hc.prepared hw.coherent (Library.prepared hp)
  | bind _ _ _ _ hb => exact hc.boundTo (Library.boundTo hb)
  | execute _ _ he =>
    obtain ⟨opened, hexec⟩ := Library.executed he
    exact hc.executed hw.coherent hexec

theorem Path.chains {a b : Multiset Nat × World} (ht : t.foreign = false) (h : Path t a b) (hs : Sound a.1 a.2)
    (hw : Owns t a.2) (hc : a.2.library.Chains) : b.2.library.Chains := by
  induction h with
  | refl => exact hc
  | tail hp hm ih => exact hm.chains ht (Path.sound hp hs) (Path.owns ht hp hs hw) ih

end DbClient
