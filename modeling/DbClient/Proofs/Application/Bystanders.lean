import DbClient.Proofs.Scope.Isolation
import DbClient.Proofs.Scope.Places

/-! Bystanders: what the operations on one statement leave of another one. All that they do is done elsewhere than at
the other statement, at what hangs below it and at what it hangs on, even where the two share their connection. -/
namespace DbClient
open Act World

variable {w w' w'' : World} {i k c q id : Nat} {n m : Node} {s b : Statement} {rs : Resultset}

/-! ### A statement and its surroundings -/

/-- What a connection hangs on. -/
lemma Connection.Placed.above {conn : Connection} (hc : conn.Placed w) (hf : w.Forest) (hq : conn.handle.node = some q)
    (hb : w.Below i q) : i = q ∨ ∃ m, w.Live i m ∧ m.parent = none := by
  obtain rfl | ⟨p, hp, hpi⟩ := Relation.ReflTransGen.cases_head hb
  · exact .inl rfl
  · obtain ⟨n, hn, hparent⟩ := parent?_eq_some.mp hp
    obtain ⟨-, -, r, m, hr, hm, htop⟩ := Wrapper.Stands.live hc hq (hf.live_of_parent hn hparent)
    obtain rfl := Option.some.inj (hparent.symm.trans hr)
    obtain rfl | ⟨x, hx, -⟩ := Relation.ReflTransGen.cases_head hpi
    · exact .inr ⟨m, hm, htop⟩
    · obtain ⟨m', hm', hparent'⟩ := parent?_eq_some.mp hx
      obtain rfl := Option.some.inj (hm.1.symm.trans hm')
      exact absurd (htop.symm.trans hparent') nofun

namespace Statement

/-- What a statement hangs on: its connection, and the root above that. -/
lemma Placed.above (hs : s.Placed w) (hf : w.Forest) (hk : s.handle.node = some k) (hb : w.Below i k) :
    i = k ∨ s.conn.handle.node = some i ∨ ∃ m, w.Live i m ∧ m.parent = none := by
  obtain rfl | ⟨p, hp, hpi⟩ := Relation.ReflTransGen.cases_head hb
  · exact .inl rfl
  · obtain ⟨n, hn, hparent⟩ := parent?_eq_some.mp hp
    obtain ⟨-, hconn⟩ := hs.2.live hk (hf.live_of_parent hn hparent)
    have hq : s.conn.handle.node = some p := hconn.symm.trans hparent
    obtain rfl | htop := hs.1.above hf hq hpi
    · exact .inr (.inl hq)
    · exact .inr (.inr htop)

/-- What hangs below a statement, with the statement itself. -/
def Tree (b : Statement) (w : World) (i : Nat) : Prop := ∃ k, b.handle.node = some k ∧ w.Below k i

/-- What a statement and its connection hang on, with both themselves. -/
def Stem (b : Statement) (w : World) (i : Nat) : Prop :=
  ∃ k, (b.handle.node = some k ∨ b.conn.handle.node = some k) ∧ w.Below i k

lemma Stem.cases (h : b.Stem w i) (hb : b.Placed w) (hf : w.Forest) :
    b.handle.node = some i ∨ b.conn.handle.node = some i ∨ ∃ m, w.Live i m ∧ m.parent = none := by
  obtain ⟨k, hk | hk, hi⟩ := h
  · obtain rfl | h := hb.above hf hk hi
    · exact .inl hk
    · exact .inr h
  · obtain rfl | h := hb.1.above hf hk hi
    · exact .inr (.inl hk)
    · exact .inr (.inr h)

/-- Everything but a statement, its variables, what hangs below it and what it hangs on; the wrappers of the latter may
come and go. Nothing is created. -/
def elsewhere (b : Statement) (w : World) : Scope where
  node i := ¬b.Tree w i ∧ ¬b.Stem w i
  count i := ¬b.Tree w i
  counted _ h := h.1
  text _ := True
  var x := ∀ d, b.data? w = some d → ∀ o ∈ d.binds.objects, o.var ≠ x
  registry := False
  creates := False

/-- All that there is of a statement is as it was before. -/
structure Unmoved (b : Statement) (w w' : World) : Prop where
  handle : b.handle.isNull w' = b.handle.isNull w
  connection : b.conn.handle.isNull w' = b.conn.handle.isNull w
  data : b.data? w' = b.data? w
  alone : ∀ id n, b.handle.node = some id → w.Live id n → w.LeavesAlone id n w'

namespace Unmoved

lemma trans (h : b.Unmoved w w') (h' : b.Unmoved w' w'') : b.Unmoved w w'' where
  handle := h'.handle.trans h.handle
  connection := h'.connection.trans h.connection
  data := h'.data.trans h.data
  alone id n hid hl := (h.alone id n hid hl).trans (h'.alone id n hid ((h.alone id n hid hl).live hl))

end Unmoved
end Statement

/-- A wrapper leads to a live node as long as the node lives. -/
lemma Wrapper.isNull_of_keepsTrunks {h : Wrapper} {P : Node → Prop} (hs : h.Stands w P) (hw : KeepsTrunks w w')
    (hl : ∀ id n, h.node = some id → w.Live id n → ∃ m, w'.Live id m) : h.isNull w' = h.isNull w := by
  cases hn : h.isNull w with
  | false =>
    obtain ⟨id, n, hid, hn⟩ := isNull_eq_false.mp hn
    obtain ⟨m, hm⟩ := hl id n hid hn
    exact isNull_eq_false.mpr ⟨id, m, hid, hm⟩
  | true =>
    by_contra hlater
    obtain ⟨id, m, hid, hm⟩ := isNull_eq_false.mp (Bool.eq_false_iff.mpr hlater)
    obtain ⟨n, hrow, -⟩ := hs id hid
    have hlive := isNull_eq_false.mpr ⟨id, n, hid, (hw.trunk id n m hrow hm).1⟩
    exact absurd (hn.symm.trans hlive) nofun

lemma Wrapper.IsOf.kind {h : Wrapper} {kind : HandleKind} (hk : h.IsOf kind w) (hid : h.node = some id)
    (hn : w.nodes.get? id = some n) : n.kind = kind := by
  have h := hk id hid
  rw [kind?, hn] at h
  exact Option.some.inj h

namespace Statement

/-- What is done elsewhere leaves a statement as it was. -/
theorem unmoved (hw : Standing w) (hb : b.Placed w) (hg : (Item.statement b).Genuine w)
    (h : StepsWithin (b.elsewhere w) w w') : b.Unmoved w w' := by
  have hkeeps := h.keepsTrunks hw
  have halone : ∀ id n, b.handle.node = some id → w.Live id n → w.LeavesAlone id n w' := fun id n hid hl => by
    refine h.leavesAlone hw hl (hg.2.kind hid hl.1) ?_
    exact {
      below := fun i hi hcount => hcount ⟨id, hid, hi⟩
      above := fun i hi hnode => hnode.2 ⟨id, .inl hid, hi⟩
      vars := fun d hd o ho hvar => hvar d (data?_eq_some.mpr ⟨id, n, hid, hl, hd⟩) o ho rfl
      creates := fun hno => hno }
  have hhandle : ∀ id n, b.handle.node = some id → w.Live id n → w'.Live id n := fun id n hid hl =>
    (halone id n hid hl).live hl
  refine ⟨Wrapper.isNull_of_keepsTrunks hb.2 hkeeps fun id n hid hl => ⟨n, hhandle id n hid hl⟩,
    Wrapper.isNull_of_keepsTrunks hb.1 hkeeps fun q n hq hl => ?_, ?_, halone⟩
  · have hangs := h.hangsOn hw hl fun i hi (hnode : (b.elsewhere w).node i) => hnode.2 ⟨q, .inr hq, hi⟩
    obtain ⟨m, hm, -⟩ := hangs.lives q n Relation.ReflTransGen.refl hl
    exact ⟨m, hm⟩
  · refine Option.ext fun d => ⟨fun hd => ?_, fun hd => ?_⟩
    · obtain ⟨id, m, hid, hm, hx⟩ := data?_eq_some.mp hd
      obtain ⟨n, hn, -⟩ := hb.2 id hid
      obtain ⟨hl, -⟩ := hkeeps.trunk id n m hn hm
      obtain rfl := (hhandle id n hid hl).unique hm
      exact data?_eq_some.mpr ⟨id, n, hid, hl, hx⟩
    · obtain ⟨id, n, hid, hl, hx⟩ := data?_eq_some.mp hd
      exact data?_eq_some.mpr ⟨id, n, hid, hhandle id n hid hl, hx⟩

/-! ### Elsewhere -/

/-- What hangs below a node elsewhere is elsewhere. -/
lemma elsewhere_child (hi : (b.elsewhere w).node i) (hc : w.parent? c = some i) : (b.elsewhere w).node c := by
  refine ⟨fun ⟨k, hk, hb⟩ => ?_, fun ⟨k, hk, hb⟩ => ?_⟩
  · obtain rfl | ⟨p, hp, hpk⟩ := Relation.ReflTransGen.cases_head hb
    · exact hi.2 ⟨c, .inl hk, Relation.ReflTransGen.single hc⟩
    · obtain rfl := Option.some.inj (hc.symm.trans hp)
      exact hi.1 ⟨k, hk, hpk⟩
  · exact hi.2 ⟨k, hk, hb.tail hc⟩

/-- It stays elsewhere, with all that comes to hang below it. -/
lemma covers_elsewhere (hw : Standing w) (hb : b.Placed w) (hi : (b.elsewhere w).node i) :
    (b.elsewhere w).Covers i w := by
  refine ⟨hi, fun v hd n c hl hc => ?_⟩
  obtain ⟨-, m', hm', hparent⟩ := (hw.within hd).forest.child hl.1 hc
  cases hrow : w.nodes.get? c with
  | some m =>
    obtain ⟨-, htrunk⟩ := (hd.keepsTrunks hw).trunk c m m' hrow hm'
    exact elsewhere_child hi (parent?_eq_some.mpr ⟨m, hrow, (Node.of_trunk htrunk).2.2.2.2.1.symm.trans hparent⟩)
  | none =>
    have hnone : w.parent? c = none := by rw [parent?, hrow]; rfl
    have hthere : ∀ k, (b.handle.node = some k ∨ b.conn.handle.node = some k) → k ≠ c := by
      rintro k (hk | hk) rfl
      · obtain ⟨n, hn, -⟩ := hb.2 k hk
        cases hrow.symm.trans hn
      · obtain ⟨n, hn, -⟩ := hb.1 k hk
        cases hrow.symm.trans hn
    constructor <;> rintro ⟨k, hk, hbelow⟩
    · obtain rfl | ⟨p, hp, -⟩ := Relation.ReflTransGen.cases_head hbelow
      · exact hthere c (.inl hk) rfl
      · cases hnone.symm.trans hp
    · obtain rfl | ⟨p, -, hp⟩ := Relation.ReflTransGen.cases_tail hbelow
      · exact hthere c hk rfl
      · obtain ⟨m, hm, hparent⟩ := parent?_eq_some.mp hp
        obtain ⟨k', hk', -⟩ := hw.forest.parent_live hm hparent
        cases hrow.symm.trans hk'.1

end Statement

/-! ### Two statements of an application -/

namespace Application
variable {a : Application}

/-- An application holds two statements that are not one and the same. -/
structure Distinct (a : Application) (s b : Statement) : Prop where
  held : {.statement s} + {.statement b} ≤ a.items
  apart : ∀ id, s.handle.node = some id → b.handle.node ≠ some id

namespace Distinct

lemma acting (hd : a.Distinct s b) : .statement s ∈ a.items :=
  Multiset.mem_of_le hd.held (Multiset.mem_add.mpr (.inl (Multiset.mem_singleton_self _)))

lemma standing (hd : a.Distinct s b) : .statement b ∈ a.items :=
  Multiset.mem_of_le hd.held (Multiset.mem_add.mpr (.inr (Multiset.mem_singleton_self _)))

lemma isSome_parent (hd : a.Distinct s b) (h : Reachable ⟨false, true⟩ a) (hk : b.handle.node = some k)
    (hl : a.world.Live k n) : n.parent ≠ none := by
  have hb : b.Placed a.world := h.placed _ hd.standing
  exact Option.isSome_iff_ne_none.mp (hb.2.live hk hl).1

/-- What happens to the handle of a statement happens elsewhere than at the other one. -/
lemma handle_elsewhere (hd : a.Distinct s b) (h : Reachable ⟨false, true⟩ a) (hi : s.handle.node = some i) :
    (b.elsewhere a.world).node i := by
  have hf := h.standing.forest
  have hs : s.Placed a.world := h.placed _ hd.acting
  have hb : b.Placed a.world := h.placed _ hd.standing
  have hgs : (Item.statement s).Genuine a.world := h.genuine rfl _ hd.acting
  have hgb : (Item.statement b).Genuine a.world := h.genuine rfl _ hd.standing
  refine ⟨fun ⟨k, hk, hbelow⟩ => ?_, fun hstem => ?_⟩
  · obtain rfl | hq | ⟨m, hm, htop⟩ := hs.above hf hi hbelow
    · exact hd.apart k hi hk
    · exact absurd ((hgs.1 k hq).symm.trans (hgb.2 k hk)) nofun
    · exact hd.isSome_parent h hk hm htop
  · obtain hk | hq | ⟨m, hm, htop⟩ := hstem.cases hb hf
    · exact hd.apart i hi hk
    · exact absurd ((hgb.1 i hq).symm.trans (hgs.2 i hi)) nofun
    · exact absurd htop (Option.isSome_iff_ne_none.mp (hs.2.live hi hm).1)

/-- The connection of a statement does not hang below the other one. -/
lemma conn_not_tree (hd : a.Distinct s b) (h : Reachable ⟨false, true⟩ a) (hq : s.conn.handle.node = some q) :
    ¬b.Tree a.world q := by
  have hs : s.Placed a.world := h.placed _ hd.acting
  have hgs : (Item.statement s).Genuine a.world := h.genuine rfl _ hd.acting
  have hgb : (Item.statement b).Genuine a.world := h.genuine rfl _ hd.standing
  rintro ⟨k, hk, hbelow⟩
  obtain rfl | ⟨m, hm, htop⟩ := hs.1.above h.standing.forest hq hbelow
  · exact absurd ((hgs.1 k hq).symm.trans (hgb.2 k hk)) nofun
  · exact hd.isSome_parent h hk hm htop

/-- Unless the two share it, the other one does not hang on it either. -/
lemma conn_elsewhere (hd : a.Distinct s b) (h : Reachable ⟨false, true⟩ a) (hq : s.conn.handle.node = some q)
    (hne : b.conn.handle.node ≠ some q) : (b.elsewhere a.world).node q := by
  have hs : s.Placed a.world := h.placed _ hd.acting
  have hb : b.Placed a.world := h.placed _ hd.standing
  have hgs : (Item.statement s).Genuine a.world := h.genuine rfl _ hd.acting
  have hgb : (Item.statement b).Genuine a.world := h.genuine rfl _ hd.standing
  refine ⟨hd.conn_not_tree h hq, fun hstem => ?_⟩
  obtain hk | hq' | ⟨m, hm, htop⟩ := hstem.cases hb h.standing.forest
  · exact absurd ((hgs.1 q hq).symm.trans (hgb.2 q hk)) nofun
  · exact hne hq'
  · obtain ⟨-, -, p, -, hp, -⟩ := hs.1.live hq hm
    exact absurd (htop.symm.trans hp) nofun

/-- A connection that both hold has two wrappers. -/
lemma one_lt_holders (hd : a.Distinct s b) (ha : a.Fit) (hs : s.conn.handle.node = some q)
    (hb : b.conn.handle.node = some q) (hl : a.world.Live q n) : 1 < n.holders := by
  obtain ⟨rest, hrest⟩ := Multiset.le_iff_exists_add.mp hd.held
  have hcount := ha.sound.counted.count q n hl.1
  rw [Application.held, hrest] at hcount
  simp only [total_add, total_singleton, Item.points_statement, Statement.points, Multiset.count_add,
    Wrapper.count_points, hs, hb, if_true] at hcount
  omega

/-- The other statement keeps the connection. -/
lemma droppable (hd : a.Distinct s b) (h : Reachable ⟨false, true⟩ a) :
    s.conn.handle.Droppable (b.elsewhere a.world) a.world := by
  refine fun q hq => ⟨hd.conn_not_tree h hq, fun n hl hh => hd.conn_elsewhere h hq fun hb => ?_⟩
  have htwo := hd.one_lt_holders h.fit hq hb hl
  omega

end Distinct
end Application

/-! ### Operations on one of the two -/

/-- Two statements have no variable in common. -/
def Statement.Unrelated (s b : Statement) (w : World) : Prop :=
  ∀ d e, s.data? w = some d → b.data? w = some e → ∀ o ∈ d.binds.objects, ∀ p ∈ e.binds.objects, p.var ≠ o.var

/-- A resultset is one of a statement, as long as it lives. -/
def Resultset.Of (rs : Resultset) (s : Statement) (w : World) : Prop :=
  rs.handle.Stands w fun n => ∃ i, s.handle.node = some i ∧ n.parent = some i

lemma Resultset.Of.keep (hrs : rs.Of s w) (hw : KeepsTrunks w w') : rs.Of s w' :=
  Wrapper.Stands.keep hrs hw fun _ _ _ _ _ ht ⟨i, hi, hp⟩ => ⟨i, hi, (Node.of_trunk ht).2.2.2.2.1.trans hp⟩

/-- What can be done with a statement, and with its resultsets. -/
inductive Operation.Concerns (s : Statement) (w : World) : Operation → Prop
  | call (k : StatementCall) : Concerns s w (.statement s k)
  | item (k : ItemCall) : Concerns s w (.item (.statement s) k)
  | resultset {rs : Resultset} (hrs : rs.Of s w) (k : ResultsetCall) : Concerns s w (.resultset rs k)
  | resultsetItem {rs : Resultset} (hrs : rs.Of s w) (k : ItemCall) : Concerns s w (.item (.resultset rs) k)

namespace Application
variable {a : Application} {op : Operation}

namespace Distinct

/-- The resultsets of a statement are elsewhere. -/
lemma resultset_elsewhere (hd : a.Distinct s b) (h : Reachable ⟨false, true⟩ a) (hrs : rs.Of s a.world)
    (hheld : a.Holds (.resultset rs)) (hi : rs.handle.node = some i) : (b.elsewhere a.world).node i := by
  have hf := h.standing.forest
  have hb : b.Placed a.world := h.placed _ hd.standing
  have hgb : (Item.statement b).Genuine a.world := h.genuine rfl _ hd.standing
  have hg : (Item.resultset rs).Genuine a.world := h.genuine_of_holds rfl hheld
  obtain ⟨n, hn, hparent⟩ := hrs i hi
  cases hr : n.released with
  | false =>
    obtain ⟨p, hp, hip⟩ := hparent ⟨hn, hr⟩
    exact Statement.elsewhere_child (hd.handle_elsewhere h hp) (parent?_eq_some.mpr ⟨n, hn, hip⟩)
  | true =>
    have htop := (hf.bare i n hn hr).1
    refine ⟨fun ⟨k, hk, hbelow⟩ => ?_, fun hstem => ?_⟩
    · obtain rfl | ⟨p, hp, -⟩ := Relation.ReflTransGen.cases_head hbelow
      · exact absurd ((hg i hi).symm.trans (hgb.2 i hk)) nofun
      · obtain ⟨m, hm, hparent⟩ := parent?_eq_some.mp hp
        obtain rfl := Option.some.inj (hn.symm.trans hm)
        exact absurd (htop.symm.trans hparent) nofun
    · obtain hk | hq | ⟨m, hm, -⟩ := hstem.cases hb hf
      · exact absurd ((hg i hi).symm.trans (hgb.2 i hk)) nofun
      · exact absurd ((hg i hi).symm.trans (hgb.1 i hq)) nofun
      · obtain rfl := Option.some.inj (hn.symm.trans hm.1)
        exact absurd (hr.symm.trans hm.2) nofun

/-- Whatever is done elsewhere leaves the other statement as it was. -/
lemma unmoved_of_within (hd : a.Distinct s b) (h : Reachable ⟨false, true⟩ a)
    (hwithin : StepsWithin (b.elsewhere a.world) a.world w') : b.Unmoved a.world w' :=
  Statement.unmoved h.standing (h.placed _ hd.standing) (h.genuine rfl _ hd.standing) hwithin

lemma covers (hd : a.Distinct s b) (h : Reachable ⟨false, true⟩ a) :
    ∀ id, s.handle.node = some id → (b.elsewhere a.world).Covers id a.world := fun _ hid =>
  Statement.covers_elsewhere h.standing (h.placed _ hd.standing) (hd.handle_elsewhere h hid)

/-- An operation on one of two statements leaves the other one as it was. -/
theorem unmoved (hd : a.Distinct s b) (h : Reachable ⟨false, true⟩ a) (hv : s.Unrelated b a.world)
    (hc : op.Concerns s a.world) (hp : op.Permitted ⟨false, true⟩) (hr : a.Ready op) :
    b.Unmoved a.world (op.after a).world := by
  have hw := h.standing
  refine hd.unmoved_of_within h (Act.Tells.within (a := op.perform) ?_)
  cases hc with
  | call k =>
    refine StatementCall.tells hw (h.fine hr _ List.mem_cons_self) (hd.covers h) (fun q hq => hd.conn_not_tree h hq)
      (fun _ _ _ => trivial) fun id n d hid hx o ho e he p hp => ?_
    exact hv d e (Statement.data?_eq_some.mpr ⟨id, n, hid, hx⟩) he o ho p hp
  | item k =>
    refine ItemCall.tells hw (hd.covers h) (fun _ => Statement.within_drop (hd.droppable h)
      (Wrapper.droppable_of_node fun id hid => hd.handle_elsewhere h hid)) fun e he => ?_
    rw [he] at hp
    exact hp
  | @resultset rs hrs k =>
    have hheld : a.Holds (.resultset rs) := hr.1 _ List.mem_cons_self
    have hfine := h.fine hr _ List.mem_cons_self
    exact ResultsetCall.tells (fun id hid => hd.resultset_elsewhere h hrs hheld hid) hw hfine k
  | @resultsetItem rs hrs k =>
    have hheld : a.Holds (.resultset rs) := hr.1 _ List.mem_cons_self
    have hnode : ∀ id, rs.handle.node = some id → (b.elsewhere a.world).node id := fun id hid =>
      hd.resultset_elsewhere h hrs hheld hid
    refine ItemCall.tells (i := .resultset rs) hw (fun id hid =>
      Statement.covers_elsewhere hw (h.placed _ hd.standing) (hnode id hid))
      (fun _ => StepsWithin.drop (Wrapper.droppable_of_node hnode)) fun e he => ?_
    rw [he] at hp
    exact hp

end Distinct
end Application
end DbClient
