import DbClient.Proofs.Application.CascadeLaw
import DbClient.Proofs.Ownership.Chains
import DbClient.Proofs.Ownership.Lineage
import DbClient.Proofs.Transfer.Steady

/-! What a walk over the resultsets of a statement finds on its way, and what leaves that alone: the wrapper of a
resultset can be dropped, with all that hangs below it, and the statement with its chain stays as it is. -/
namespace DbClient
open World
variable {t : Terms} {w w' w'' : World} {id i j : Nat} {n m k : Node}

/-! ### Nodes that go on -/

namespace World

/-- A live node goes on, with its native handle and what it keeps. -/
def Upholds (id : Nat) (w w' : World) : Prop :=
  ∀ n, w.Live id n → ∃ m, w'.Live id m ∧ m.native = n.native ∧ m.extra = n.extra

namespace Upholds

lemma of_nodes (h : w'.nodes = w.nodes) : Upholds id w w' := fun n hn => ⟨n, ⟨h ▸ hn.1, hn.2⟩, rfl, rfl⟩

lemma trans (h : Upholds id w w') (h' : Upholds id w' w'') : Upholds id w w'' := by
  intro n hn
  obtain ⟨m, hm, e1, e2⟩ := h n hn
  obtain ⟨k, hk, e3, e4⟩ := h' m hm
  exact ⟨k, hk, e3.trans e1, e4.trans e2⟩

/-- The number of wrappers of a node has changed. -/
lemma modifyNode {f : Node → Node}
    (hf : ∀ n, (f n).native = n.native ∧ (f n).extra = n.extra ∧ (f n).released = n.released) (i : Nat) (w : World) :
    Upholds id w (w.modifyNode i f) := by
  intro n hn
  have hget : (w.modifyNode i f).nodes.get? id = if i = id then some (f n) else some n := by
    rw [nodes_modifyNode, Table.get?_modify, hn.1]
    rfl
  by_cases hi : i = id
  · obtain ⟨h1, h2, h3⟩ := hf n
    exact ⟨f n, ⟨hget.trans (if_pos hi), h3.trans hn.2⟩, h1, h2⟩
  · exact ⟨n, ⟨hget.trans (if_neg hi), hn.2⟩, rfl, rfl⟩

lemma grow (hf : w.Forest) (h : Fits k w) : Upholds id w (w.grow k) := by
  intro n hn
  refine ⟨_, ⟨hf.get?_grow_of_get? h hn.1, ?_⟩, ?_, ?_⟩
  · split <;> exact hn.2
  · split <;> rfl
  · split <;> rfl

/-- A wrapper is dropped, and the node does not hang below it. -/
lemma drop (hf : w.Forest) (hj : w.Live j m) (hb : ¬w.Below j id) : Upholds id w (Wrapper.drop ⟨some j⟩ w) := by
  by_cases hlast : m.holders = 1
  · intro n hn
    have hout := (hf.cascade_drop hj hlast).outside id n hn.1 fun r hr => by
      rw [List.mem_singleton.mp hr]
      exact hb
    exact ⟨_, ⟨hout, hn.2⟩, rfl, rfl⟩
  · rw [drop_eq hj.1, if_neg hlast]
    exact modifyNode (f := Node.fewer) (fun _ => ⟨rfl, rfl, rfl⟩) j w

end Upholds

/-- A node hangs neither below its children nor below their siblings. -/
lemma Forest.not_below_child (hf : w.Forest) (hj : w.parent? j = some id) : ¬w.Below j id := fun h =>
  absurd (hf.le_of_below h) (Nat.not_le_of_lt (hf.parent_lt hj))

lemma Forest.not_below_sibling (hf : w.Forest) (hj : w.parent? j = some id) (hi : w.parent? i = some id)
    (hne : i ≠ j) : ¬w.Below j i := fun h =>
  hf.siblings_disjoint hj hi (Ne.symm hne) h Relation.ReflTransGen.refl

end World

/-! ### Nodes of resultsets -/

namespace Owns

/-- As long as a statement is not released, the native library has kept its resultsets with their rows. -/
structure SparesChain (t : Terms) (id : Nat) (n : Node) (w v : World) : Prop where
  owns : Owns t v
  carries : Carries w v
  chain : ∀ k, v.Live id k → v.library.stmts.get? n.native = w.library.stmts.get? n.native ∧
    ∀ r ∈ w.library.listed n.native, v.library.rsets.get? r = w.library.rsets.get? r

lemma SparesChain.refl (hw : Owns t w) : SparesChain t id n w w := ⟨hw, .refl w, fun _ _ => ⟨rfl, fun _ _ => rfl⟩⟩

/-- The release of a leaf that is not the statement spares its chain. -/
lemma SparesChain.retire {v : World} {i : Nat} {q : Node} (h : SparesChain t id n w v) (hl : w.Live id n)
    (hs : (w.library.stmts.get? n.native).isSome) (hv : v.Forest) (hq : v.Live i q) (hleaf : q.children = []) :
    SparesChain t id n w (v.retire i) := by
  refine ⟨h.owns.retire hv hq hleaf, h.carries.trans (.retire hv hq), fun k hk => ?_⟩
  obtain ⟨hne, k', hk', -⟩ := live_of_retire hv hq hk
  obtain ⟨hstmts, hrsets⟩ := h.chain k' hk'
  rw [(retire_around hq.1 (hv.linked.parent_ne hq.1)).1]
  split
  · rename_i hqo
    -- the leaf owns another handle than the statement
    have hnative : k'.native = n.native := (Node.of_stem (h.carries.stem id n k' hl.1 hk').2).1
    have hknown : (v.library.stmts.get? k'.native).isSome := by rw [hnative, hstmts, hs]
    have hother : n.native ≠ q.native := fun e =>
      hne (h.owns.unique id i k' q hk' hq (h.owns.owned_of_stmts hk' hknown) hqo (hnative.trans e))
    have hlisted : v.library.listed n.native = w.library.listed n.native := by
      rw [Library.listed, Library.listed, hstmts]
    obtain ⟨h1, h2⟩ := Library.chain_letGo h.owns.coherent q.kind hother
    exact ⟨h1.trans hstmts, fun r hr => (h2 r (hlisted ▸ hr)).trans (hrsets r hr)⟩
  · exact ⟨hstmts, hrsets⟩

/-- Releases that spare a statement spare its chain. -/
theorem chain_drop (hw : Owns t w) (hf : w.Forest) (hl : w.Live id n) (hs : (w.library.stmts.get? n.native).isSome)
    (hlater : (Wrapper.drop ⟨some j⟩ w).Live id k) :
    (Wrapper.drop ⟨some j⟩ w).library.stmts.get? n.native = w.library.stmts.get? n.native ∧
      ∀ r ∈ w.library.listed n.native, (Wrapper.drop ⟨some j⟩ w).library.rsets.get? r = w.library.rsets.get? r := by
  have hfewer : SparesChain t id n w (w.modifyNode j Node.fewer) :=
    ⟨hw.modifyNode (f := Node.fewer) (fun _ => rfl) j, .modifyNode (f := Node.fewer) (fun _ => rfl) j w,
      fun _ _ => ⟨rfl, fun _ _ => rfl⟩⟩
  have hdrop : SparesChain t id n w (Wrapper.drop ⟨some j⟩ w) :=
    hf.drop_induction j hfewer fun _ _ _ hv h hq hleaf => h.retire hl hs hv hq hleaf
  exact hdrop.chain k hlater

/-- The release of the resultsets of a statement spares its chain. -/
lemma chain_retireAll {ids : List Nat} (hw : Owns t w) (hf : w.Forest) (hl : w.Live id n)
    (hs : (w.library.stmts.get? n.native).isSome) (hb : w.BottomUp ids) :
    SparesChain t id n w (World.retireAll ids w) :=
  (hf.retireAll_induction hb (.refl hw) fun _ _ _ hv h hq hleaf => h.retire hl hs hv hq hleaf).2

end Owns

/-! ### Chains that are on offer -/

namespace Statement

/-- The resultsets that the native library lists for a statement, each with its cursor. -/
def chain (s : Statement) (w : World) : List (Address × Cursor) :=
  (w.library.listed (s.handle.native w)).filterMap fun r => (w.library.rsets.get? r).map fun c => (r, c)

/-- No resultset is left out of the chain. -/
lemma map_chain (hc : w.library.Chains) (s : Statement) :
    (s.chain w).map Prod.fst = w.library.listed (s.handle.native w) := by
  have hall := (hc (s.handle.native w)).2
  rw [Statement.chain]
  generalize w.library.listed (s.handle.native w) = rs at hall
  induction rs with
  | nil => rfl
  | cons r rest ih =>
    obtain ⟨c, hr⟩ := Option.isSome_iff_exists.mp (hall r List.mem_cons_self)
    rw [List.filterMap_cons_some (by rw [hr, Option.map_some]), List.map_cons,
      ih fun q hq => hall q (List.mem_cons_of_mem _ hq)]

variable {s : Statement} {chain : List (Address × Cursor)} {taken : Option Nat} {d : StatementData}

/-- What a walk over the resultsets of a statement finds: the statement has been executed, the native library lists
the resultsets of a chain for it, one of which was taken last, each of them has its cursor, and neither to take a
resultset nor to fetch is made to fail. -/
structure Offers (s : Statement) (chain : List (Address × Cursor)) (taken : Option Nat) (w : World) : Prop where
  executed : ∃ d, s.data? w = some d ∧ d.status = .executed
  listed : ∃ st, w.library.stmts.get? (s.handle.native w) = some st ∧ st.resultsets = chain.map Prod.fst ∧
    st.cursor = taken
  cursors : ∀ p ∈ chain, w.library.rsets.get? p.1 = some p.2
  calm : w.library.failures.get? .resultset = none ∧ w.library.failures.get? .fetch = none

namespace Offers

/-- The node of a statement whose chain is on offer. -/
lemma node (h : s.Offers chain taken w) : ∃ id n d st, s.handle.node = some id ∧ w.Live id n ∧ n.Keeps d ∧
    d.status = .executed ∧ w.library.stmts.get? n.native = some st ∧ st.resultsets = chain.map Prod.fst ∧
    st.cursor = taken := by
  obtain ⟨d, hd, hstatus⟩ := h.executed
  obtain ⟨id, n, hid, hl, hx⟩ := data?_eq_some.mp hd
  obtain ⟨st, hst, hr, htaken⟩ := h.listed
  rw [Wrapper.native_of_live hid hl] at hst
  exact ⟨id, n, d, st, hid, hl, hx, hstatus, hst, hr, htaken⟩

lemma of_node (st : NativeStatement) (hid : s.handle.node = some id) (hl : w.Live id n) (hx : n.Keeps d)
    (hstatus : d.status = .executed) (hst : w.library.stmts.get? n.native = some st)
    (hr : st.resultsets = chain.map Prod.fst) (htaken : st.cursor = taken)
    (hcursors : ∀ p ∈ chain, w.library.rsets.get? p.1 = some p.2)
    (hcalm : w.library.failures.get? .resultset = none ∧ w.library.failures.get? .fetch = none) :
    s.Offers chain taken w := by
  refine ⟨⟨d, data?_eq_some.mpr ⟨id, n, hid, hl, hx⟩, hstatus⟩, ⟨st, ?_, hr, htaken⟩, hcursors, hcalm⟩
  rw [Wrapper.native_of_live hid hl]
  exact hst

/-- A step that leaves the node of the statement and its chain alone. -/
lemma carry (h : s.Offers chain taken w) (hup : ∀ id, s.handle.node = some id → Upholds id w w')
    (hstmts : ∀ id n, s.handle.node = some id → w.Live id n →
      w'.library.stmts.get? n.native = w.library.stmts.get? n.native)
    (hrsets : ∀ p ∈ chain, w'.library.rsets.get? p.1 = w.library.rsets.get? p.1)
    (hcalm : Steadies .resultset w w' ∧ Steadies .fetch w w') : s.Offers chain taken w' := by
  obtain ⟨id, n, d, st, hid, hl, hx, hstatus, hst, hr, htaken⟩ := h.node
  obtain ⟨m, hm, hnative, hextra⟩ := hup id hid n hl
  refine of_node st hid hm (hextra.trans hx) hstatus ?_ hr htaken (fun p hp => (hrsets p hp).trans (h.cursors p hp))
    ⟨hcalm.1 h.calm.1, hcalm.2 h.calm.2⟩
  rw [hnative, hstmts id n hid hl]
  exact hst

/-- A step in which no primitive is called. -/
lemma of_library (h : s.Offers chain taken w) (hup : ∀ id, s.handle.node = some id → Upholds id w w')
    (hlib : w'.library = w.library) : s.Offers chain taken w' :=
  h.carry hup (fun _ _ _ _ => by rw [hlib]) (fun _ _ => by rw [hlib]) ⟨.of_eq hlib, .of_eq hlib⟩

lemma chain_eq (h : s.Offers chain taken w) : s.chain w = chain := by
  obtain ⟨st, hst, hr, -⟩ := h.listed
  rw [Statement.chain, Library.listed_of_get? hst, hr]
  have hall := h.cursors
  clear h hr
  induction chain with
  | nil => rfl
  | cons p rest ih =>
    rw [List.map_cons, List.filterMap_cons_some (by rw [hall p List.mem_cons_self, Option.map_some]),
      ih fun q hq => hall q (List.mem_cons_of_mem _ hq)]

lemma chainLength (h : s.Offers chain taken w) : s.chainLength w = chain.length := by
  obtain ⟨st, hst, hr, -⟩ := h.listed
  rw [Statement.chainLength, hst, Option.map_some, Option.getD_some, hr, List.length_map]

lemma mem_listed (h : s.Offers chain taken w) (hid : s.handle.node = some id) (hl : w.Live id n)
    {p : Address × Cursor} (hp : p ∈ chain) : p.1 ∈ w.library.listed n.native := by
  obtain ⟨i, k, -, st, hi, hk, -, -, hst, hr, -⟩ := h.node
  obtain rfl := Option.some.inj (hid.symm.trans hi)
  obtain rfl := hl.unique hk
  rw [Library.listed_of_get? hst, hr]
  exact List.mem_map_of_mem hp

/-- The resultsets of a chain are all different. -/
lemma nodup (h : s.Offers chain taken w) (hc : w.library.Chains) : (chain.map Prod.fst).Nodup := by
  obtain ⟨-, n, -, st, -, -, -, -, hst, hr, -⟩ := h.node
  rw [← hr, ← Library.listed_of_get? hst]
  exact (hc n.native).1

lemma ne_of_nodup {front rest : List (Address × Cursor)} {p q : Address × Cursor}
    (h : s.Offers (front ++ p :: q :: rest) taken w) (hc : w.library.Chains) : p.1 ≠ q.1 := by
  have hnodup := h.nodup hc
  rw [List.map_append, List.map_cons, List.map_cons] at hnodup
  exact fun e => (List.nodup_cons.mp (List.nodup_append.mp hnodup).2.1).1 (e ▸ List.mem_cons_self)

/-- A wrapper of a resultset of the chain is dropped. -/
theorem drop {h : Wrapper} {p : Address × Cursor} (ho : s.Offers chain taken w) (hw : Owns t w) (hf : w.Forest)
    (hj : h.node = some j) (hm : w.Live j m) (hp : p ∈ chain) (hnative : m.native = p.1) :
    s.Offers chain taken (h.drop w) := by
  obtain ⟨node⟩ := h
  obtain rfl : node = some j := hj
  obtain ⟨id, n, d, st, hid, hl, -, -, hst, -, -⟩ := ho.node
  have hbelow := hw.below_of_listed hl hm (hnative ▸ ho.mem_listed hid hl hp)
  have hup : Upholds id w (Wrapper.drop ⟨some j⟩ w) :=
    .drop hf hm (hf.not_below_child (parent?_eq_some.mpr ⟨m, hm.1, hbelow.1⟩))
  obtain ⟨k, hk, -⟩ := hup n hl
  obtain ⟨hstmts, hrsets⟩ := hw.chain_drop hf hl (by rw [hst]; rfl) hk
  have hcalm : ∀ op, Steadies op w (Wrapper.drop ⟨some j⟩ w) := fun op =>
    Steadies.releasing.drop (fun _ _ => .of_eq rfl) _ w
  refine ho.carry (fun i hi => ?_) (fun i q hi hq => ?_) (fun q hq => hrsets q.1 (ho.mem_listed hid hl hq))
    ⟨hcalm _, hcalm _⟩
  · obtain rfl := Option.some.inj (hid.symm.trans hi)
    exact hup
  · obtain rfl := Option.some.inj (hid.symm.trans hi)
    obtain rfl := hl.unique hq
    exact hstmts

/-- When a wrapper of a resultset of the chain is dropped, the nodes of the others go on. -/
lemma upholds_drop {p q : Address × Cursor} (ho : s.Offers chain taken w) (hw : Owns t w) (hf : w.Forest)
    (hj : w.Live j m) (hp : p ∈ chain) (hnative : m.native = p.1) (hi : w.Live i k) (hq : q ∈ chain)
    (hnative' : k.native = q.1) (hne : p.1 ≠ q.1) : Upholds i w (Wrapper.drop ⟨some j⟩ w) := by
  obtain ⟨id, n, -, -, hid, hl, -⟩ := ho.node
  have hparent := (hw.below_of_listed hl hj (hnative ▸ ho.mem_listed hid hl hp)).1
  have hparent' := (hw.below_of_listed hl hi (hnative' ▸ ho.mem_listed hid hl hq)).1
  have hother : i ≠ j := by
    rintro rfl
    rw [hi.unique hj, hnative] at hnative'
    exact hne hnative'
  exact .drop hf hj (hf.not_below_sibling (parent?_eq_some.mpr ⟨m, hj.1, hparent⟩)
    (parent?_eq_some.mpr ⟨k, hi.1, hparent'⟩) hother)

end Offers
end Statement
end DbClient
