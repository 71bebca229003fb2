import DbClient.Proofs.Scope.Isolation

/-! What becomes of the attributes of handles. Most calls write none but the number of rows that an execution touched,
and what is done to nodes that a node does not hang on leaves the attributes of its handle as they are. -/
namespace DbClient
open Act World

/-- A setting of a statement, which the statement keeps as well. -/
def Attr.IsSetting (attr : Attr) : Prop := attr = .bindArraySize ∨ attr = .fetchMode

lemma Attr.IsSetting.ne_rowCount {attr : Attr} (h : attr.IsSetting) : attr ≠ .rowCount := by
  rintro rfl
  exact h.elim nofun nofun

namespace Library
variable {α : Type} {l l' : Library} {op : Primitive} {a h stmt : Address} {attr other : Attr} {v : Value}
  {body : Library → Option α × Library}

/-! ### Calls -/

lemma attr?_run (hb : ∀ m, (body m).2.attr? a attr = m.attr? a attr) :
    (run op h body l).2.attr? a attr = l.attr? a attr := by
  cases hf : l.failures.get? op with
  | some e =>
    rw [run_injected hf]
    rfl
  | none =>
    rw [run_free hf]
    exact hb _

lemma attr?_withPrepared {f : NativeStatement → String → Library → Option α × Library}
    (hf : ∀ st sql, (f st sql l).2.attr? a attr = l.attr? a attr) :
    (withPrepared stmt f l).2.attr? a attr = l.attr? a attr := by
  unfold withPrepared
  split
  · rfl
  · split
    · rfl
    · exact hf _ _

lemma attr?_withBound {name : String} {pos : Nat} {f : Bound → Library → Option α × Library}
    (hf : ∀ b, (f b l).2.attr? a attr = l.attr? a attr) :
    (withBound stmt name pos f l).2.attr? a attr = l.attr? a attr := by
  unfold withBound
  split
  · rfl
  · split
    · exact hf _
    · rfl

/-- An attribute that has been written is the one that was to be written, and no other one has been. -/
lemma attr?_setAttr {x : Unit} (hc : setAttr h attr v l = (some x, l')) (b : Address) (other : Attr) :
    l'.attr? b other = if (h, attr) = (b, other) then some v else l.attr? b other := by
  obtain ⟨-, hb⟩ := run_some hc
  split at hb
  · cases hb
  · obtain ⟨-, rfl⟩ := Prod.mk.inj hb
    exact Assoc.get?_put _ _ _ _

/-- A handle that is alive takes an attribute, and the next one as well, unless a failure is injected. -/
lemma setAttr_free (attr : Attr) (v : Value) (hf : l.failures.get? .setAttr = none) (ha : l.isAlive h = true) :
    ∃ l', setAttr h attr v l = (some (), l') ∧ l'.isAlive h = true ∧ l'.failures.get? .setAttr = none := by
  have halive : isAlive { l.called (some .setAttr) h with error := none } h = true := ha
  rw [setAttr, run_free hf, halive]
  exact ⟨_, rfl, ha, hf⟩

/-- If writing an attribute fails, none has been written. -/
lemma attr?_setAttr_of_none (hc : (setAttr h attr v l).1.isSome = false) (b : Address) (other : Attr) :
    (setAttr h attr v l).2.attr? b other = l.attr? b other := by
  unfold setAttr at hc ⊢
  cases hf : l.failures.get? .setAttr with
  | some e =>
    rw [run_injected hf]
    rfl
  | none =>
    rw [run_free hf] at hc ⊢
    split at hc
    · rename_i hdead
      rw [if_pos hdead]
      rfl
    · cases hc

end Library

namespace Invocation
open Library
variable {i : Invocation} {l : Library} {attr : Attr}

/-- A call that neither writes attributes nor destroys a handle with its attributes. -/
def Silent : Invocation → Prop
  | setAttr .. | destroy .. => False
  | _ => True

/-- Such a call changes no attribute but the number of rows. -/
theorem attr?_of_silent (hi : i.Silent) (ha : attr ≠ .rowCount) (a : Address) :
    (i.run l).2.attr? a attr = l.attr? a attr := by
  have hrows : ∀ b : Address, (b, Attr.rowCount) ≠ (a, attr) := fun b he => ha (congrArg Prod.snd he).symm
  cases i with
  | create kind parent =>
    refine attr?_run fun m => ?_
    split
    · rfl
    · dsimp only
      split <;> rfl
  | destroy => exact hi.elim
  | setAttr => exact hi.elim
  | getAttr h attr =>
    refine attr?_run fun m => ?_
    split
    · rfl
    · split
      · rfl
      · split <;> rfl
  | prepare stmt sql mode =>
    refine attr?_run fun m => ?_
    split
    · rfl
    · split
      · rfl
      · change ((dropResultsets stmt m).attrs.erase (stmt, .rowCount)).get? (a, attr) = _
        rw [Assoc.get?_erase, if_neg (hrows stmt), Beside.attrs_dropResultsets]
        rfl
  | bind stmt d => exact attr?_run fun m => attr?_withPrepared fun _ _ => rfl
  | register stmt name ty maxLength => exact attr?_run fun m => attr?_withPrepared fun _ _ => rfl
  | dataSize stmt name pos => exact attr?_run fun m => attr?_withBound fun _ => rfl
  | setDataSize stmt name pos size =>
    refine attr?_run fun m => attr?_withBound fun b => ?_
    split <;> rfl
  | execute stmt iters memory =>
    refine attr?_run fun m => attr?_withPrepared fun st sql => ?_
    have hopened :=
      Beside.openResultsets stmt (((dropResultsets stmt m).scripts.get? sql).getD []) (dropResultsets stmt m)
    change ((Library.openResultsets stmt (((dropResultsets stmt m).scripts.get? sql).getD [])
      (dropResultsets stmt m)).2.attrs.put (stmt, .rowCount) _).get? (a, attr) = _
    rw [Assoc.get?_put, if_neg (hrows stmt), hopened.1, Beside.attrs_dropResultsets]
    rfl
  | resultset stmt =>
    refine attr?_run fun m => ?_
    split
    · rfl
    · split <;> rfl
  | nextResultset stmt =>
    refine attr?_run fun m => ?_
    split <;> rfl
  | fetch rs move =>
    refine attr?_run fun m => ?_
    split <;> rfl
  | currentRow rs => rfl
  | columnCount rs =>
    change (Library.columnCount rs l).2.attr? a attr = _
    unfold Library.columnCount
    split <;> rfl
  | columnValue rs index =>
    refine attr?_run fun m => ?_
    split
    · rfl
    · split
      · rfl
      · split <;> rfl
  | breakCall conn =>
    refine attr?_run fun m => ?_
    split <;> rfl

/-- The same, of a call that has succeeded. -/
lemma attr?_of_some {α : Type} {x : α} {l' : Library} (hi : i.Silent) (hr : i.run l = gave (some x, l'))
    (ha : attr ≠ .rowCount) (a : Address) : l'.attr? a attr = l.attr? a attr := by
  have h := attr?_of_silent (l := l) hi ha a
  rwa [hr] at h

lemma Reads.silent (h : i.Reads) : i.Silent := by
  cases i with
  | create => trivial
  | getAttr => trivial
  | _ => exact h.elim

/-- A steady call changes no setting. -/
lemma Steady.attr? (hs : i.Steady l) (ha : attr.IsSetting) (a : Address) :
    (i.run l).2.attr? a attr = l.attr? a attr := by
  cases i with
  | setAttr h other v =>
    by_cases ho : other.IsSetting
    · exact attr?_setAttr_of_none (hs ho) a attr
    · -- what is written is no setting
      refine Library.attr?_run fun m => ?_
      split
      · rfl
      · have hother : other ≠ attr := fun he => ho (he ▸ ha)
        exact (Assoc.get?_put _ _ _ _).trans (if_neg fun he => hother (congrArg Prod.snd he))
  | destroy => exact hs.elim
  | _ =>
    refine attr?_of_silent ?_ ha.ne_rowCount a
    trivial

end Invocation

/-! ### Steps elsewhere -/

variable {S : Scope} {t : Terms} {w w' : World} {id j q : Nat} {n m : Node} {attr : Attr}

/-- A step that has to do with one node leaves the attributes of all others. -/
lemma Owns.attr?_of_beside {l : Library} (hw : Owns t w) (hl : w.Live q n) (ho : n.owned = true) (hm : w.Live j m)
    (hne : j ≠ q) (h : w.library.Beside m.native l) (attr : Attr) :
    l.attr? n.native attr = w.library.attr? n.native attr :=
  h.attrs n.native attr fun he => hne (hw.unique_of_has hl hm (hw.owned q n hl ho) he.symm)

/-- So does the release of a leaf. -/
lemma Owns.attr?_retire (hw : Owns t w) (hf : w.Forest) (hl : w.Live q n) (ho : n.owned = true) (hm : w.Live j m)
    (hne : j ≠ q) (attr : Attr) : (w.retire j).library.attr? n.native attr = w.library.attr? n.native attr := by
  rw [(retire_around hm.1 (hf.linked.parent_ne hm.1)).1]
  split
  · exact hw.attr?_of_beside hl ho hm hne (.letGo _ _ _) attr
  · rfl

/-- A node that hangs on keeps its handle, and the handle its attributes. -/
structure World.KeepsAttrs (q : Nat) (n : Node) (w w' : World) : Prop where
  hangs : HangsOn q w w'
  attrs : ∀ attr, attr ≠ .rowCount → w'.library.attr? n.native attr = w.library.attr? n.native attr

/-- What is done to nodes that a node does not hang on leaves its attributes, but for the number of rows. -/
theorem StepWithin.keepsAttrs (hw : Standing w) (hl : w.Live q n) (ho : n.owned = true)
    (hS : ∀ i, w.Below i q → ¬S.node i) (h : StepWithin S w w') : KeepsAttrs q n w w' := by
  refine ⟨h.hangsOn hw hl hS, fun attr ha => ?_⟩
  have hself : ∀ i, S.node i → i ≠ q := fun i hi he => hS i (he ▸ Relation.ReflTransGen.refl) hi
  -- one leaf after the other is released, while the node hangs on
  have hrelease : ∀ i, S.node i → ∀ v j m, v.Forest → (Owns ⟨false, true⟩ v ∧ HangsOn q w v ∧
      v.library.attr? n.native attr = w.library.attr? n.native attr) → v.Live j m → m.children = [] → v.Below i j →
      Owns ⟨false, true⟩ (v.retire j) ∧ HangsOn q w (v.retire j) ∧
        (v.retire j).library.attr? n.native attr = w.library.attr? n.native attr := by
    rintro i hi v j m hv ⟨hown, hangs, hsame⟩ hj hleaf hij
    obtain ⟨n', hn', htrunk⟩ := hangs.lives q n Relation.ReflTransGen.refl hl
    obtain ⟨hnative, -, howned, -⟩ := Node.of_trunk htrunk
    have hbelow : ¬v.Below j q := fun hb => hS i ((hangs.above i).mp (hb.trans hij)) hi
    refine ⟨hown.retire hv hj hleaf, hangs.trans (.retire (fun k hk => hv.live_above hn' hk) hv hj hbelow), ?_⟩
    rw [← hsame, ← hnative]
    exact hown.attr?_retire hv hn' (howned.trans ho) hj (fun he => hbelow (he ▸ Relation.ReflTransGen.refl)) attr
  have hcreate : ∀ {kind : HandleKind} {parent a : Address} {l : Library},
      Library.create kind parent w.library = (some a, l) → l.attr? n.native attr = w.library.attr? n.native attr :=
    fun {kind parent a l} hc =>
      Invocation.attr?_of_some (i := .create kind parent) trivial (congrArg Invocation.gave hc) ha n.native
  have hstart : HangsOn q w w :=
    HangsOn.across.same w w rfl rfl fun i hi => ⟨hw.forest.live_above hl hi, hS i hi⟩
  cases h with
  | look _ i _ hr _ => exact Invocation.attr?_of_silent hr.silent ha n.native
  | refuse => exact Invocation.attr?_of_silent (i := .create .environment .null) trivial ha n.native
  | @drop id hc hn =>
    have hfewer : HangsOn q w (w.modifyNode id Node.fewer) :=
      HangsOn.across.edit (S := S) Node.fewer (fun _ => rfl) id w fun i hi => ⟨hw.forest.live_above hl hi, hS i hi⟩
    exact (hw.forest.drop_within (P := fun v => Owns ⟨false, true⟩ v ∧ HangsOn q w v ∧
      v.library.attr? n.native attr = w.library.attr? n.native attr) id
      ⟨hw.owns.modifyNode (f := Node.fewer) (fun _ => rfl) id, hfewer, rfl⟩
      fun m hm hh => hrelease id (hn m hm hh)).2.2
  | @release id m hn hm =>
    exact (hw.forest.release_within (P := fun v => Owns ⟨false, true⟩ v ∧ HangsOn q w v ∧
      v.library.attr? n.native attr = w.library.attr? n.native attr) hm ⟨hw.owns, hstart, rfl⟩ (hrelease id hn)).2.2
  | @adopt node l hc hl' =>
    rw [library_grow]
    exact hcreate hl'
  | @begin node l hc hk hl' =>
    rw [library_modifyNode, library_grow]
    exact hcreate hl'
  | lend => rw [library_grow]
  | work hn hm h => exact hw.owns.attr?_of_beside hl ho hm (hself _ hn) h.beside attr
  | _ => rfl

/-- So does all that an operation does to them. -/
theorem StepsWithin.keepsAttrs (hw : Standing w) (hl : w.Live q n) (ho : n.owned = true)
    (hS : ∀ i, w.Below i q → ¬S.node i) (h : StepsWithin S w w') : KeepsAttrs q n w w' := by
  refine h.induct hw ⟨(StepsWithin.refl w).hangsOn hw hl hS, fun _ _ => rfl⟩ fun v v' hv hkeeps hd => ?_
  obtain ⟨n', hn', htrunk⟩ := hkeeps.hangs.lives q n Relation.ReflTransGen.refl hl
  obtain ⟨hnative, -, howned, -⟩ := Node.of_trunk htrunk
  have hstep := hd.keepsAttrs hv hn' (howned.trans ho) fun i hi => hS i ((hkeeps.hangs.above i).mp hi)
  refine ⟨hkeeps.hangs.trans hstep.hangs, fun attr ha => ?_⟩
  rw [← hkeeps.attrs attr ha, ← hnative]
  exact hstep.attrs attr ha

end DbClient
