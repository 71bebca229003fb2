import DbClient.Proofs.Scope.Nodes
import DbClient.Proofs.Transfer.Execution

/-! What steps leave alone. Those of a scope that spares a statement change nothing of it: neither what it keeps nor
what the native library keeps of it, neither its resultsets nor its buffers and variables. What it hangs on lives
on. -/
namespace DbClient
open World

variable {S : Scope} {t : Terms} {w w' w'' : World} {b i j k q id : Nat} {n m : Node} {d : StatementData} {text : Prop}

namespace World

/-! ### Places in the forest -/

/-- Of two nodes above a third one, one is above the other. -/
lemma below_total (hi : w.Below i k) (hj : w.Below j k) : w.Below i j ∨ w.Below j i :=
  (Relation.ReflTransGen.total_of_right_unique (fun _ _ _ h h' => Option.some.inj (h.symm.trans h')) hi hj).symm

lemma Forest.live_above (hf : w.Forest) (hl : w.Live k n) (hb : w.Below i k) : ∃ m, w.Live i m := by
  induction hb with
  | refl => exact ⟨n, hl⟩
  | tail _ hp ih =>
    obtain ⟨m, hm, hparent⟩ := parent?_eq_some.mp hp
    obtain ⟨p, hp, -⟩ := hf.parent_live hm hparent
    exact ⟨p, hp⟩

/-- The nodes above a node live on where they are. -/
structure HangsOn (q : Nat) (w w' : World) : Prop where
  lives : ∀ i m, w.Below i q → w.Live i m → ∃ m', w'.Live i m' ∧ m'.trunk = m.trunk
  above : ∀ i, w'.Below i q ↔ w.Below i q

namespace HangsOn

lemma trans (h : HangsOn q w w') (h' : HangsOn q w' w'') : HangsOn q w w'' := by
  refine ⟨fun i m hb hm => ?_, fun i => (h'.above i).trans (h.above i)⟩
  obtain ⟨m', hm', ht⟩ := h.lives i m hb hm
  obtain ⟨m'', hm'', ht'⟩ := h'.lives i m' ((h.above i).mpr hb) hm'
  exact ⟨m'', hm'', ht'.trans ht⟩

/-- Live nodes have their parents for good. -/
lemma of_lives (hlive : ∀ i, w.Below i q → ∃ m, w.Live i m)
    (lives : ∀ i m, w.Below i q → w.Live i m → ∃ m', w'.Live i m' ∧ m'.trunk = m.trunk) : HangsOn q w w' := by
  have hparent : ∀ c, w.Below c q → w'.parent? c = w.parent? c := fun c hc => by
    obtain ⟨m, hm⟩ := hlive c hc
    obtain ⟨m', hm', ht⟩ := lives c m hc hm
    rw [parent?, parent?, hm.1, hm'.1]
    exact (Node.of_trunk ht).2.2.2.2.1
  refine ⟨lives, fun i => ⟨fun hb => ?_, fun hb => ?_⟩⟩
  · induction hb with
    | refl => exact Relation.ReflTransGen.refl
    | tail _ hp ih => exact Relation.ReflTransGen.tail ih ((hparent _ ih).symm.trans hp)
  · induction hb with
    | refl => exact Relation.ReflTransGen.refl
    | tail hb hp ih => exact Relation.ReflTransGen.tail ih ((hparent _ hb).trans hp)

lemma retire (hlive : ∀ i, w.Below i q → ∃ m, w.Live i m) (hf : w.Forest) (hj : w.Live j m) (hb : ¬w.Below j q) :
    HangsOn q w (w.retire j) := by
  refine of_lives hlive fun i k hi hk => ⟨k.dropChild j, ⟨?_, hk.2⟩, rfl⟩
  have hne : j ≠ i := fun he => hb (he ▸ hi)
  rw [hf.get?_retire hj, if_neg hne, hk.1]
  rfl

/-- A node hangs on if the nodes above it live, and none of them is in the scope. -/
def Within (S : Scope) (q : Nat) (w w' : World) : Prop :=
  (∀ i, w.Below i q → (∃ m, w.Live i m) ∧ ¬S.node i) → HangsOn q w w'

instance : IsTrans World (Within S q) where
  trans u v x huv hvx h := by
    have hfirst := huv h
    refine hfirst.trans (hvx fun i hi => ?_)
    have hbelow := (hfirst.above i).mp hi
    obtain ⟨m, hm⟩ := (h i hbelow).1
    obtain ⟨m', hm', -⟩ := hfirst.lives i m hbelow hm
    exact ⟨⟨m', hm'⟩, (h i hbelow).2⟩

lemma across : Across S (Within S q) where
  same w w' hn _ h := of_lives (fun i hi => (h i hi).1) fun i m _ hm => ⟨m, ⟨hn ▸ hm.1, hm.2⟩, rfl⟩
  edit f hf id w h := of_lives (fun i hi => (h i hi).1) fun i m _ hm => by
    refine ⟨if id = i then f m else m, ⟨?_, ?_⟩, ?_⟩
    · rw [nodes_modifyNode, Table.get?_modify, hm.1]
      split <;> rfl
    · split
      · exact (Node.of_trunk (hf m)).2.2.2.1.trans hm.2
      · exact hm.2
    · split
      · exact hf m
      · rfl
  retire w id n hf hl hin h := by
    obtain ⟨j, hj, hb⟩ := hin
    exact retire (fun i hi => (h i hi).1) hf hl fun hid => (h j (hid.trans hb)).2 hj
  grow w node hf hfits h := of_lives (fun i hi => (h i hi).1) fun i m _ hm => by
    refine ⟨_, ⟨hf.get?_grow_of_get? hfits hm.1, ?_⟩, ?_⟩
    · split <;> exact hm.2
    · split <;> rfl
  openEnv w e _ _ _ h := of_lives (fun i hi => (h i hi).1) fun i m _ hm => ⟨m, hm, rfl⟩
  enroll _ f _ env w h := of_lives (fun i hi => (h i hi).1) fun i m _ hm => ⟨m, hm, rfl⟩

end HangsOn
end World

lemma StepWithin.hangsOn (hw : Standing w) (hl : w.Live q n) (hS : ∀ i, w.Below i q → ¬S.node i)
    (h : StepWithin S w w') : HangsOn q w w' :=
  HangsOn.across.step hw.forest h fun i hi => ⟨hw.forest.live_above hl hi, hS i hi⟩

/-- A node hangs on in all that an operation does to other nodes. -/
theorem StepsWithin.hangsOn (hw : Standing w) (hl : w.Live q n) (hS : ∀ i, w.Below i q → ¬S.node i)
    (h : StepsWithin S w w') : HangsOn q w w' :=
  HangsOn.across.within hw h fun i hi => ⟨hw.forest.live_above hl hi, hS i hi⟩

/-! ### What the native library keeps of a statement -/

namespace Library
variable {a h : Address} {l l' l'' : Library}

/-- The native library keeps what it kept of a statement: the text, what is bound and registered, the place in the
chain of resultsets, the attributes, and the cursors of the resultsets. -/
structure SameStatement (a : Address) (l l' : Library) : Prop where
  stmt : l'.stmts.get? a = l.stmts.get? a
  attrs : ∀ attr, l'.attr? a attr = l.attr? a attr
  cursors : ∀ r ∈ l.listed a, l'.rsets.get? r = l.rsets.get? r

namespace SameStatement

lemma of_eq (stmts : l'.stmts = l.stmts) (attrs : l'.attrs = l.attrs) (rsets : l'.rsets = l.rsets) :
    SameStatement a l l' := ⟨by rw [stmts], fun _ => by rw [attr?, attr?, attrs], fun _ _ => by rw [rsets]⟩

@[refl] lemma refl (l : Library) : SameStatement a l l := of_eq rfl rfl rfl

lemma trans (h : SameStatement a l l') (h' : SameStatement a l' l'') : SameStatement a l l'' where
  stmt := h'.stmt.trans h.stmt
  attrs attr := (h'.attrs attr).trans (h.attrs attr)
  cursors r hr := by
    have hlisted : l'.listed a = l.listed a := by rw [listed, listed, h.stmt]
    exact (h'.cursors r (hlisted ▸ hr)).trans (h.cursors r hr)

end SameStatement

/-- A step that has to do with another handle, if that is none of its resultsets. -/
lemma Beside.sameStatement (hb : Beside h l l') (hl : l.Coherent) (hne : a ≠ h) (hn : a.number ≤ l.next)
    (hh : h ∉ l.listed a) : SameStatement a l l' where
  stmt := hb.stmts a hne hn
  attrs attr := hb.attrs a attr hne
  cursors r hr := by
    refine hb.rsets r (fun he => hh (he ▸ hr)) (fun hr' => hne (hl.listed_unique hr hr')) ?_
    exact (hl.numbered r _ ((hl.listed a r).mp hr).2).2

lemma Beside.letGo (kind : HandleKind) (h : Address) (l : Library) : Beside h l (l.letGo kind h) := by
  have hd := Beside.destroy kind h l
  unfold Library.letGo
  rcases hr : Library.destroy kind h l with ⟨_ | _, l'⟩ <;> rw [hr] at hd
  · exact ⟨hd.next, hd.stmts, hd.attrs, hd.rsets, hd.handles, hd.failures⟩
  · exact hd

end Library

/-- A call that only reads leaves all statements as they are. -/
lemma Invocation.Reads.sameStatement {i : Invocation} {l : Library} {a : Address} (hr : i.Reads) (hs : i.Steady l) :
    l.SameStatement a (i.run l).2 := by
  cases i with
  | create kind parent =>
    change l.SameStatement a (Library.create kind parent l).2
    change (Library.create kind parent l).1.isSome = false at hs
    unfold Library.create at hs ⊢
    cases hf : l.failures.get? .create with
    | some e =>
      rw [Library.run_injected hf]
      exact .of_eq rfl rfl rfl
    | none =>
      rw [Library.run_free hf] at hs ⊢
      split at hs
      · rename_i hc
        rw [if_pos hc]
        exact .of_eq rfl rfl rfl
      · cases hs
  | getAttr h attr =>
    change l.SameStatement a (Library.getAttr h attr l).2
    unfold Library.getAttr
    cases hf : l.failures.get? .getAttr with
    | some e =>
      rw [Library.run_injected hf]
      exact .of_eq rfl rfl rfl
    | none =>
      rw [Library.run_free hf]
      split
      · exact .of_eq rfl rfl rfl
      · split
        · exact .of_eq rfl rfl rfl
        · split <;> exact .of_eq rfl rfl rfl
  | _ => exact hr.elim

/-- A step of the native library that has to do with another node leaves a statement alone. -/
lemma Owns.sameStatement {l : Library} (hw : Owns t w) (hb : w.Live b n) (hk : n.kind = .statement) (hm : w.Live id m)
    (hne : ¬w.Below b id) (h : w.library.Beside m.native l) : w.library.SameStatement n.native l := by
  have hown : n.owned = true := by
    by_contra hlent
    have hkind := (hw.lent b n hb (Bool.eq_false_iff.mpr hlent)).1
    exact absurd (hk.symm.trans hkind) nofun
  refine h.sameStatement hw.coherent (fun he => ?_) (hw.numbered hb).2 fun hlisted => ?_
  · obtain rfl := hw.unique_of_has hb hm (hw.owned b n hb hown) he.symm
    exact hne Relation.ReflTransGen.refl
  · obtain ⟨hparent, -⟩ := hw.below_of_listed hb hm hlisted
    exact hne (Relation.ReflTransGen.single (parent?_eq_some.mpr ⟨m, hm.1, hparent⟩))

/-! ### Work on another node -/

namespace Work

/-- Work has to do with the native handle of its node. -/
lemma beside (h : Work text id n w w') : w.library.Beside n.native w'.library := by
  have hcall : ∀ {α : Type} {p : Option α × Library} {x : α} {l : Library} (i : Invocation), i.handle = n.native →
      i.run w.library = Invocation.gave p → p = (some x, l) → w.library.Beside n.native l :=
    fun i hh hrun hp => by
      have hb := i.beside w.library
      rw [hh, hrun, hp] at hb
      exact hb
  cases h with
  | call i hi => exact hi ▸ i.beside w.library
  | resize _ hc => exact hcall (.setAttr ..) rfl rfl hc
  | turn _ hc => exact hcall (.setAttr ..) rfl rfl hc
  | mark _ hc => exact hcall (.setAttr ..) rfl rfl hc
  | renew _ _ hp => exact hcall (.prepare ..) rfl rfl hp
  | bind _ _ _ hb => exact hcall (.bind ..) rfl rfl hb
  | execute _ _ _ he => exact hcall (.execute ..) rfl rfl he
  | _ => exact .refl _

lemma row (h : Work text id n w w') (hne : i ≠ id) : w'.nodes.get? i = w.nodes.get? i := by
  cases h with
  | keep => exact get?_modifyNode_of_ne hne _ _
  | tune => exact get?_modifyNode_of_ne hne _ _
  | resize => exact get?_modifyNode_of_ne hne _ _
  | turn => exact get?_modifyNode_of_ne hne _ _
  | close => exact get?_modifyNode_of_ne hne _ _
  | renew => exact get?_modifyNode_of_ne hne _ _
  | bind => exact get?_modifyNode_of_ne hne _ _
  | _ => rfl

lemma vars (h : Work text id n w w') : w'.vars = w.vars := by
  cases h <;> rfl

/-- Work leaves the buffers of all other statements as they are. -/
theorem buffers (hw : Bindings w) (hl : w.Live id n) (hd : w.HasData b m d) (hne : b ≠ id) (h : Work text id n w w')
    {x : Nat} (hx : x ∈ d.binds.buffers) : w'.memory.get? x = w.memory.get? x := by
  have hnext : x ≠ w.memory.next := (hw.stocked b m d hd).ne_next hw.memory hx
  have hfreed := hw.get?_freed hl hd hne x hx
  cases h with
  | @fill c buffer offset bytes hc hbuffer =>
    have hother : buffer ≠ x := fun he =>
      hw.apart b id m n d c hd ⟨hl, hc⟩ hne hx (he ▸ hbuffer)
    exact (Table.get?_modify _ _ _ _).trans (if_neg hother)
  | scratch bytes =>
    change ((w.memory.add bytes).erase w.memory.next).get? x = _
    rw [Table.get?_erase, if_neg (Ne.symm hnext), Table.get?_add, if_neg (Ne.symm hnext)]
  | keep => exact hfreed
  | close _ _ hc =>
    rw [Bindings.buffers_of_keeps hc] at hfreed
    exact hfreed
  | @bind c plan l log hc _ hn =>
    rw [Bindings.buffers_of_keeps hc, Table.get?_erase_all] at hfreed
    change ((((c.binds.add (BindObject.place plan w).1 c.allowRebinding).1.map BindObject.buffer).toList.foldl
      Table.erase (w.memory.add _)).get? x) = _
    rw [Table.get?_erase_all, if_neg, Table.get?_add, if_neg (Ne.symm hnext)]
    intro hold
    obtain ⟨p, hp, -, rfl⟩ := BindsHolder.mem_replaced (hw.stocked id n c ⟨hl, hc⟩).names hn hold
    exact hw.apart b id m n d c hd ⟨hl, hc⟩ hne hx (List.mem_map_of_mem hp)
  | @execute c iters results memory l log hc hs _ he =>
    obtain ⟨opened, he⟩ := Library.executed he
    refine he.others x fun name bound hbound heq => ?_
    obtain ⟨st, hst, hag⟩ := hw.agree id n c ⟨hl, hc⟩ hs
    rw [Library.bound?, hst] at hbound
    obtain ⟨o, ho, -, hframe⟩ := hag.object hbound
    rw [(describes hframe).2.2.2.2.2] at heq
    exact hw.apart b id m n d c hd ⟨hl, hc⟩ hne hx (heq ▸ List.mem_map_of_mem ho)
  | _ => rfl

end Work

/-! ### Statements that are left alone -/

namespace World

/-- A statement is left alone, with its resultsets, its buffers and its variables. -/
structure LeavesAlone (b : Nat) (n : Node) (w w' : World) : Prop where
  /-- The node of the statement and the wrappers of its resultsets stay as they are, -/
  rows : ∀ i, w.Below b i → w'.nodes.get? i = w.nodes.get? i
  /-- and there are no more of them. -/
  below : ∀ i, w'.Below b i ↔ w.Below b i
  hangs : HangsOn b w w'
  library : w.library.SameStatement n.native w'.library
  buffers : ∀ d, n.Keeps d → ∀ x ∈ d.binds.buffers, w'.memory.get? x = w.memory.get? x
  vars : ∀ d, n.Keeps d → ∀ o ∈ d.binds.objects, w'.vars.get? o.var = w.vars.get? o.var

namespace LeavesAlone

lemma live (h : LeavesAlone b n w w') (hl : w.Live b n) : w'.Live b n :=
  ⟨(h.rows b Relation.ReflTransGen.refl).trans hl.1, hl.2⟩

lemma trans (h : LeavesAlone b n w w') (h' : LeavesAlone b n w' w'') : LeavesAlone b n w w'' where
  rows i hi := (h'.rows i ((h.below i).mpr hi)).trans (h.rows i hi)
  below i := (h'.below i).trans (h.below i)
  hangs := h.hangs.trans h'.hangs
  library := h.library.trans h'.library
  buffers d hd x hx := (h'.buffers d hd x hx).trans (h.buffers d hd x hx)
  vars d hd o ho := (h'.vars d hd o ho).trans (h.vars d hd o ho)

/-- In forests, the nodes below are those that their rows list. -/
lemma of_rows (hf : w.Forest) (hf' : w'.Forest) (hl : w.Live b n)
    (rows : ∀ i, w.Below b i → w'.nodes.get? i = w.nodes.get? i) (hangs : HangsOn b w w')
    (library : w.library.SameStatement n.native w'.library)
    (buffers : ∀ d, n.Keeps d → ∀ x ∈ d.binds.buffers, w'.memory.get? x = w.memory.get? x)
    (vars : ∀ d, n.Keeps d → ∀ o ∈ d.binds.objects, w'.vars.get? o.var = w.vars.get? o.var) :
    LeavesAlone b n w w' := by
  refine ⟨rows, fun i => ⟨fun hb => ?_, fun hb => ?_⟩, hangs, library, buffers, vars⟩
  · induction hb using Relation.ReflTransGen.head_induction_on with
    | refl => exact Relation.ReflTransGen.refl
    | @head c p hp _ ih =>
      obtain ⟨m, hm⟩ := hf.below_live hl ih
      have hchild := (hf'.mem_children ((rows p ih).trans hm.1)).mpr hp
      exact Relation.ReflTransGen.head (hf.down p m c hm.1 hchild) ih
  · induction hb using Relation.ReflTransGen.head_induction_on with
    | refl => exact Relation.ReflTransGen.refl
    | @head c p hp hb ih =>
      refine Relation.ReflTransGen.head ?_ ih
      rw [parent?, rows c (Relation.ReflTransGen.head hp hb)]
      exact hp

/-- A leaf elsewhere is released. -/
lemma retire (hf : w.Forest) (ho : Owns t w) (hw : Bindings w) (hl : w.Live b n) (hk : n.kind = .statement)
    (hj : w.Live j m) (hleaf : m.children = []) (hbelow : ¬w.Below b j) (habove : ¬w.Below j b) :
    LeavesAlone b n w (w.retire j) := by
  obtain ⟨hlib, hmem, -⟩ := retire_around hj.1 (hf.linked.parent_ne hj.1)
  have hne : b ≠ j := fun he => hbelow (he ▸ Relation.ReflTransGen.refl)
  refine of_rows hf (hf.retire hj hleaf) hl (fun i hi => ?_)
    (.retire (fun i hi => hf.live_above hl hi) hf hj habove) ?_ (fun d hd x hx => ?_) fun d _ o _ => ?_
  · obtain ⟨k, hk⟩ := hf.below_live hl hi
    have hji : j ≠ i := fun he => hbelow (he ▸ hi)
    have hno : j ∉ k.children := fun hc =>
      hbelow (Relation.ReflTransGen.head (hf.down i k j hk.1 hc) hi)
    have hfilter : k.children.filter (· ≠ j) = k.children :=
      List.filter_eq_self.mpr fun c hc => decide_eq_true fun he : c = j => hno (he ▸ hc)
    have hsame : k.dropChild j = k := by
      rw [Node.dropChild, hfilter]
    rw [hf.get?_retire hj, if_neg hji, hk.1, Option.map_some, hsame]
  · rw [hlib]
    split
    · exact ho.sameStatement hl hk hj hbelow (.letGo _ _ _)
    · exact .refl _
  · rw [hmem, Table.get?_erase_all, if_neg]
    intro hfreed
    obtain ⟨e, he, hxe⟩ := Bindings.keeps_of_mem_freed hfreed
    exact hw.apart b j n m d e ⟨hl, hd⟩ ⟨hj, he⟩ hne hx hxe
  · rw [(Aside.releasing.retire j w).vars]

end LeavesAlone
end World

/-- Nothing of a statement is in the scope, nor anything that the statement hangs on; nothing new can come to hang on
the statement. -/
structure Scope.Spares (S : Scope) (b : Nat) (n : Node) (w : World) : Prop where
  below : ∀ i, w.Below b i → ¬S.count i
  above : ∀ i, w.Below i b → ¬S.node i
  vars : ∀ d, n.Keeps d → ∀ o ∈ d.binds.objects, ¬S.var o.var
  creates : ¬S.creates

namespace Scope.Spares

lemma keep (h : S.Spares b n w) (hla : LeavesAlone b n w w') : S.Spares b n w' :=
  ⟨fun i hi => h.below i ((hla.below i).mp hi), fun i hi => h.above i ((hla.hangs.above i).mp hi), h.vars, h.creates⟩

lemma not_below (h : S.Spares b n w) (hn : S.node i) : ¬w.Below b i := fun hb => h.below i hb (S.counted i hn)

/-- What hangs below a node of the scope is no kin of the statement. -/
lemma apart (h : S.Spares b n w) (hn : S.node i) (hb : w.Below i j) : ¬w.Below b j ∧ ¬w.Below j b := by
  refine ⟨fun hj => ?_, fun hj => h.above i (hj.trans hb) hn⟩
  obtain hi | hi := below_total hj hb
  · exact h.not_below hn hi
  · exact h.above i hi hn

end Scope.Spares

/-- A step leaves a statement alone that its scope spares. -/
theorem StepWithin.leavesAlone (hw : Standing w) (hl : w.Live b n) (hk : n.kind = .statement) (hS : S.Spares b n w)
    (h : StepWithin S w w') : LeavesAlone b n w w' := by
  have hf' := (hw.step h).forest
  have hangs := h.hangsOn hw hl hS.above
  have hne : ∀ i k, S.count k → w.Below b i → i ≠ k := fun i k hk hi he => hS.below k (he ▸ hi) hk
  have hplain : w'.nodes = w.nodes → w.library.SameStatement n.native w'.library → w'.memory = w.memory →
      w'.vars = w.vars → LeavesAlone b n w w' := fun hn hlib hm hv =>
    .of_rows hw.forest hf' hl (fun _ _ => by rw [hn]) hangs hlib (fun _ _ _ _ => by rw [hm]) fun _ _ _ _ => by rw [hv]
  -- one leaf after the other is released below a node of the scope
  have hrelease : ∀ i, S.node i → ∀ v j m, v.Forest → (Owns ⟨false, true⟩ v ∧ Bindings v ∧ LeavesAlone b n w v) →
      v.Live j m → m.children = [] → v.Below i j →
      Owns ⟨false, true⟩ (v.retire j) ∧ Bindings (v.retire j) ∧ LeavesAlone b n w (v.retire j) := by
    rintro i hi v j m hv ⟨ho, hb, hla⟩ hj hleaf hij
    obtain ⟨hbelow, habove⟩ := (hS.keep hla).apart hi hij
    exact ⟨ho.retire hv hj hleaf, hb.retire ho hv hj,
      hla.trans (.retire hv ho hb (hla.live hl) hk hj hleaf hbelow habove)⟩
  cases h with
  | log => exact hplain rfl (.refl _) rfl rfl
  | forget => exact hplain rfl (.of_eq rfl rfl rfl) rfl rfl
  | look _ i _ hr hs => exact hplain rfl (hr.sameStatement hs) rfl rfl
  | refuse hs => exact hplain rfl (Invocation.Reads.sameStatement trivial hs) rfl rfl
  | @write x hx v =>
    refine .of_rows hw.forest hf' hl (fun _ _ => rfl) hangs (.refl _) (fun _ _ _ _ => rfl) fun d hd o ho => ?_
    have hother : x ≠ o.var := fun he => hS.vars d hd o ho (he ▸ hx)
    exact (Table.get?_modify _ _ _ _).trans (if_neg hother)
  | enroll => exact hplain rfl (.refl _) rfl rfl
  | openEnv hc => exact absurd hc hS.creates
  | adopt hc => exact absurd hc hS.creates
  | begin hc => exact absurd hc hS.creates
  | acquire hc =>
    exact .of_rows hw.forest hf' hl (fun i hi => get?_modifyNode_of_ne (hne i _ hc hi) _ _) hangs (.refl _)
      (fun _ _ _ _ => rfl) fun _ _ _ _ => rfl
  | @drop id hc hn =>
    have hfewer : LeavesAlone b n w (w.modifyNode id Node.fewer) := by
      refine .of_rows hw.forest (hw.forest.fewer id) hl (fun i hi => get?_modifyNode_of_ne (hne i id hc hi) _ _) ?_
        (.refl _) (fun _ _ _ _ => rfl) fun _ _ _ _ => rfl
      exact HangsOn.across.edit Node.fewer (fun _ => rfl) id w fun i hi =>
        ⟨hw.forest.live_above hl hi, hS.above i hi⟩
    exact (hw.forest.drop_within (P := fun v => Owns ⟨false, true⟩ v ∧ Bindings v ∧ LeavesAlone b n w v) id
      ⟨hw.owns.modifyNode (f := Node.fewer) (fun _ => rfl) id,
        hw.bindings.modifyNode (f := Node.fewer) (fun _ => ⟨rfl, rfl, rfl⟩) id, hfewer⟩
      fun m hm hh => hrelease id (hn m hm hh)).2.2
  | @release id m hn hm =>
    have hself : LeavesAlone b n w w :=
      .of_rows hw.forest hw.forest hl (fun _ _ => rfl) (HangsOn.across.same w w rfl rfl fun i hi =>
        ⟨hw.forest.live_above hl hi, hS.above i hi⟩) (.refl _) (fun _ _ _ _ => rfl) fun _ _ _ _ => rfl
    exact (hw.forest.release_within (P := fun v => Owns ⟨false, true⟩ v ∧ Bindings v ∧ LeavesAlone b n w v) hm
      ⟨hw.owns, hw.bindings, hself⟩ (hrelease id hn)).2.2
  | @lend p m node st hn hp hparent _ _ hfits =>
    refine .of_rows hw.forest hf' hl (fun i hi => ?_) hangs ?_ (fun _ _ _ _ => ?_) fun _ _ _ _ => ?_
    · obtain ⟨k, hk⟩ := hw.forest.below_live hl hi
      have hother : node.parent ≠ some i := fun he => by
        obtain rfl := Option.some.inj (hparent.symm.trans he)
        exact hS.not_below hn hi
      rw [hw.forest.get?_grow_of_get? hfits hk.1, if_neg hother, hk.1]
    · rw [library_grow]
    · rw [memory_grow]
    · rw [World.grow, Wrapper.addNode]
      dsimp only
      split <;> rfl
  | @work _ id m hn hm h =>
    have hbid : b ≠ id := fun he => hS.not_below hn (he ▸ Relation.ReflTransGen.refl)
    refine .of_rows hw.forest hf' hl (fun i hi => h.row (hne i id (S.counted id hn) hi)) hangs
      (hw.owns.sameStatement hl hk hm (hS.not_below hn) h.beside)
      (fun d hd x hx => h.buffers hw.bindings hm ⟨hl, hd⟩ hbid hx) fun d _ o _ => by rw [h.vars]

/-- So does all that an operation does. -/
theorem StepsWithin.leavesAlone (hw : Standing w) (hl : w.Live b n) (hk : n.kind = .statement) (hS : S.Spares b n w)
    (h : StepsWithin S w w') : LeavesAlone b n w w' := by
  induction h with
  | refl =>
    exact .of_rows hw.forest hw.forest hl (fun _ _ => rfl) ((StepsWithin.refl w).hangsOn hw hl hS.above) (.refl _)
      (fun _ _ _ _ => rfl) fun _ _ _ _ => rfl
  | tail hd h ih => exact ih.trans (h.leavesAlone (hw.within hd) (ih.live hl) hk (hS.keep ih))

end DbClient
