import DbClient.Proofs.Moves.Basic
import DbClient.Proofs.Ownership.Library

/-! Ownership: what live nodes have to do with the handles of the native library. Each node that owns its
native handle keeps it alive, each other one wraps a resultset that a statement lists; and as long as
destruction is not made to fail, nothing that was created is alive without a node. -/
namespace DbClient

/-- The node without what can change while it lives. -/
def Node.stem (n : Node) : Node := { n with holders := 0, children := [], onRelease := .nothing, extra := none }

lemma Node.of_stem {m n : Node} (h : m.stem = n.stem) :
    m.native = n.native ∧ m.kind = n.kind ∧ m.owned = n.owned ∧ m.parent = n.parent := by
  simp only [Node.stem, Node.mk.injEq] at h
  exact ⟨h.1, h.2.1, h.2.2.1, h.2.2.2.2.2.1⟩

/-- A call that was made with a handle that was there, or asked for one under none; and when it destroyed a
handle, nothing that was created under it was left. -/
structure Call.Proper (t : Terms) (l : Library) (c : Call) : Prop where
  handle : c.alive.contains c.handle = true ∨ c.op = some .create ∧ c.handle = .null
  born : ∀ a, c.alive.contains a = true → ∃ o, l.origins.get? a = some o
  last : t.faults = false → c.op = some .destroy → ∀ a, c.alive.contains a = true →
    l.origins.get? a ≠ some (.created c.handle)

lemma Call.Proper.mono {t : Terms} {l l' : Library} {c : Call} (hc : c.Proper t l) (h : l.Remembers l') :
    c.Proper t l' := by
  refine ⟨hc.handle, fun a ha => (hc.born a ha).imp fun o => h a o, fun ht hop a ha he => ?_⟩
  obtain ⟨o, ho⟩ := hc.born a ha
  rw [h a o ho] at he
  exact hc.last ht hop a ha (ho.trans he)

/-- Nodes and native handles belong together. -/
structure Owns (t : Terms) (w : World) : Prop where
  coherent : w.library.Coherent
  owned : ∀ id n, w.Live id n → n.owned = true → w.library.Has n.kind (w.nativeOf n.parent) n.native
  unique : ∀ i j n m, w.Live i n → w.Live j m → n.owned = true → m.owned = true → n.native = m.native → i = j
  lent : ∀ id n, w.Live id n → n.owned = false → n.kind = .resultset ∧ ∃ p m, n.parent = some p ∧
    w.Live p m ∧ m.owned = true ∧ n.native ∈ w.library.listed m.native
  sturdy : t.faults = false → w.library.failures.get? .destroy = none
  kept : t.faults = false → ∀ k p a, w.library.Has k p a → ∃ id n, w.Live id n ∧ n.owned = true ∧ n.native = a
  calls : ∀ c ∈ w.library.calls, c.Proper t w.library

namespace World
variable {w w' : World} {id p : Nat} {n m : Node}

@[simp] lemma nativeOf_none (w : World) : w.nativeOf none = .null := rfl

lemma nativeOf_some (h : w.nodes.get? p = some m) : w.nativeOf (some p) = m.native := by
  rw [nativeOf, Option.bind_some, h]
  rfl

/-- The native handle above a node depends on the stem of its parent only. -/
lemma nativeOf_congr (h : ∀ p, n.parent = some p → ∃ m m', w.nodes.get? p = some m ∧ w'.nodes.get? p = some m' ∧
    m'.native = m.native) : w'.nativeOf n.parent = w.nativeOf n.parent := by
  cases hp : n.parent with
  | none => rfl
  | some p =>
    obtain ⟨m, m', hm, hm', hn⟩ := h p hp
    rw [nativeOf_some hm, nativeOf_some hm', hn]

end World

namespace Owns
open World Library
variable {t : Terms} {w w' : World} {id i j p : Nat} {n m node : Node} {l : Library} {stmt : Address}

/-- The native handle of a live node is alive. -/
theorem alive (hw : Owns t w) (hl : w.Live id n) : w.library.isAlive n.native = true := by
  by_cases ho : n.owned = true
  · exact (hw.owned id n hl ho).alive
  · obtain ⟨-, p, m, -, -, -, hr⟩ := hw.lent id n hl (Bool.eq_false_iff.mpr ho)
    exact ((hw.coherent.listed _ _).mp hr).1

/-- The node of a handle that was created owns it. -/
lemma owned_of_has {k : HandleKind} {q : Address} (hw : Owns t w) (hl : w.Live id n)
    (hh : w.library.Has k q n.native) : n.owned = true := by
  by_contra ho
  obtain ⟨-, p, m, -, -, -, hr⟩ := hw.lent id n hl (Bool.eq_false_iff.mpr ho)
  exact hw.coherent.not_listed hh hr

lemma owned_of_stmts (hw : Owns t w) (hl : w.Live id n) (hs : (w.library.stmts.get? n.native).isSome) :
    n.owned = true := by
  obtain ⟨q, hq⟩ := hw.coherent.stmts n.native hs
  exact hw.owned_of_has hl hq

lemma unique_of_has {k : HandleKind} {q : Address} (hw : Owns t w) (hi : w.Live i n) (hj : w.Live j m)
    (hh : w.library.Has k q n.native) (he : m.native = n.native) : j = i :=
  hw.unique j i m n hj hi (hw.owned_of_has hj (he ▸ hh)) (hw.owned_of_has hi hh) he

/-- The node of a resultset hangs below that of the statement which lists it. -/
lemma below_of_listed (hw : Owns t w) (hl : w.Live id n) (hm : w.Live j m)
    (hr : m.native ∈ w.library.listed n.native) : m.parent = some id ∧ m.kind = .resultset := by
  have hmo : m.owned = false := Bool.eq_false_iff.mpr fun ho => hw.coherent.not_listed (hw.owned j m hm ho) hr
  obtain ⟨hkind, p, k, hparent, hk, hko, hkl⟩ := hw.lent j m hm hmo
  have hno : n.owned = true := by
    refine hw.owned_of_stmts hl (Option.isSome_iff_ne_none.mpr fun hnone => ?_)
    rw [Library.listed, hnone] at hr
    cases hr
  obtain rfl : p = id := hw.unique p id k n hk hl hko hno (hw.coherent.listed_unique hkl hr)
  exact ⟨hparent, hkind⟩

/-! ### Steps of the nodes -/

/-- Ownership depends on stems only. -/
theorem congr (hw : Owns t w) (stems : ∀ id, (w'.nodes.get? id).map Node.stem = (w.nodes.get? id).map Node.stem)
    (library : w'.library = w.library) : Owns t w' := by
  have back : ∀ id n, w'.Live id n → ∃ m, w.Live id m ∧ m.stem = n.stem := fun id n hn => by
    obtain ⟨m, hm, hs⟩ := exists_of_map_eq (stems id) hn.1
    exact ⟨m, ⟨hm, (congrArg Node.released hs).trans hn.2⟩, hs⟩
  have forth : ∀ id n, w.Live id n → ∃ m, w'.Live id m ∧ m.stem = n.stem := fun id n hn => by
    obtain ⟨m, hm, hs⟩ := exists_of_map_eq (stems id).symm hn.1
    exact ⟨m, ⟨hm, (congrArg Node.released hs).trans hn.2⟩, hs⟩
  have hnative : ∀ o, w'.nativeOf o = w.nativeOf o := by
    rintro (_ | p)
    · rfl
    · have hp := congrArg (fun o => (o.map Node.native).getD .null) (stems p)
      simpa only [nativeOf, Option.bind_some, Option.map_map, Function.comp_def, Node.stem] using hp
  refine ⟨library ▸ hw.coherent, fun id n hn ho => ?_, fun i j n m hi hj hni hmj he => ?_,
    fun id n hn ho => ?_, library ▸ hw.sturdy, fun ht k p a ha => ?_, library ▸ hw.calls⟩
  · obtain ⟨m, hm, hs⟩ := back id n hn
    obtain ⟨e1, e2, e3, e4⟩ := Node.of_stem hs
    rw [library, hnative, ← e1, ← e2, ← e4]
    exact hw.owned id m hm (e3.trans ho)
  · obtain ⟨n', hn', hs⟩ := back i n hi
    obtain ⟨m', hm', hs'⟩ := back j m hj
    obtain ⟨e1, -, e3, -⟩ := Node.of_stem hs
    obtain ⟨e1', -, e3', -⟩ := Node.of_stem hs'
    exact hw.unique i j n' m' hn' hm' (e3.trans hni) (e3'.trans hmj) (e1.trans (he.trans e1'.symm))
  · obtain ⟨n', hn', hs⟩ := back id n hn
    obtain ⟨e1, e2, e3, e4⟩ := Node.of_stem hs
    obtain ⟨hk, p, m, hp, hm, hmo, hr⟩ := hw.lent id n' hn' (e3.trans ho)
    obtain ⟨m', hm', hs'⟩ := forth p m hm
    obtain ⟨e1', -, e3', -⟩ := Node.of_stem hs'
    refine ⟨e2.symm.trans hk, p, m', e4.symm.trans hp, hm', e3'.trans hmo, ?_⟩
    rw [library, ← e1, e1']
    exact hr
  · obtain ⟨id, n, hn, ho, he⟩ := hw.kept ht k p a (library ▸ ha)
    obtain ⟨m, hm, hs⟩ := forth id n hn
    obtain ⟨e1, -, e3, -⟩ := Node.of_stem hs
    exact ⟨id, m, hm, e3.trans ho, e1.trans he⟩

lemma modifyNode (hw : Owns t w) {f : Node → Node} (hf : ∀ n, (f n).stem = n.stem) (id : Nat) :
    Owns t (w.modifyNode id f) := by
  refine hw.congr (fun i => ?_) rfl
  rw [nodes_modifyNode, Table.get?_modify]
  split <;> simp [Function.comp_def, hf]

lemma still (hw : Owns t w) (h : Still w w') (library : w'.library = w.library) : Owns t w' := by
  refine hw.congr (fun i => ?_) library
  have hc : ∀ o : Option Node, o.map Node.stem = (o.map Node.core).map Node.stem := by
    rintro (_ | n) <;> rfl
  rw [hc (w'.nodes.get? i), h.nodes, ← hc]

/-! ### Steps of the library -/

/-- A step of the library that leaves what was created alone, and the resultsets that are wrapped. -/
theorem ofLibrary (hw : Owns t w) (coherent : l.Coherent) (remembers : w.library.Remembers l)
    (has : ∀ k p a, l.Has k p a ↔ w.library.Has k p a)
    (lists : ∀ id n p m, w.Live id n → n.kind = .resultset → n.parent = some p → w.Live p m → m.owned = true →
      n.native ∈ w.library.listed m.native → n.native ∈ l.listed m.native)
    (sturdy : w.library.failures.get? .destroy = none → l.failures.get? .destroy = none)
    (calls : ∃ cs, l.calls = w.library.calls ++ cs ∧ ∀ c ∈ cs, c.Proper t w.library) :
    Owns t { w with library := l } := by
  refine ⟨coherent, fun id n hn ho => (has _ _ _).mpr (hw.owned id n hn ho), hw.unique, fun id n hn ho => ?_,
    fun ht => sturdy (hw.sturdy ht), fun ht k p a ha => hw.kept ht k p a ((has k p a).mp ha), ?_⟩
  · obtain ⟨hk, p, m, hp, hm, hmo, hr⟩ := hw.lent id n hn ho
    exact ⟨hk, p, m, hp, hm, hmo, lists id n p m hn hk hp hm hmo hr⟩
  · obtain ⟨cs, hcs, hc⟩ := calls
    intro c hm
    change c ∈ l.calls at hm
    rw [hcs] at hm
    rcases List.mem_append.mp hm with hm | hm
    · exact (hw.calls c hm).mono remembers
    · exact (hc c hm).mono remembers

/-- A call that is made with the native handle of a live node, or asks for a handle under none, is proper
unless it destroys. -/
lemma proper (hw : Owns t w) {c : Call} (ha : c.alive = w.library.handles) (hop : c.op ≠ some .destroy)
    (hh : w.Answers c.handle ∨ c.op = some .create ∧ c.handle = .null) : c.Proper t w.library := by
  obtain ⟨op, h, alive⟩ := c
  obtain rfl : alive = w.library.handles := ha
  refine ⟨hh.imp_left ?_, hw.coherent.born, fun _ he => absurd he hop⟩
  rintro ⟨id, n, hl, he⟩
  exact he ▸ hw.alive hl

/-- A step of the library in which no handle comes or goes. -/
theorem same (hw : Owns t w) (h : Same w.library l)
    (sturdy : w.library.failures.get? .destroy = none → l.failures.get? .destroy = none)
    (calls : ∃ cs, l.calls = w.library.calls ++ cs ∧ ∀ c ∈ cs, c.Proper t w.library) :
    Owns t { w with library := l } := by
  refine hw.ofLibrary (hw.coherent.same h) (fun a o ho => by rw [h.origins, ho]) (fun k p a => ?_)
    (fun id n p m _ _ _ _ _ hr => by rwa [h.listed]) sturdy calls
  rw [Has, Has, h.handles, h.origins]

/-- The resultsets of a statement give way to others when none of them is wrapped. -/
theorem renewed {opened : List Address} (hw : Owns t w) (h : Renewed stmt opened w.library l) (hl : w.Live id n)
    (hn : n.native = stmt) (hk : (w.library.stmts.get? stmt).isSome) (hf : w.Forest) (hc : w.Cleared n)
    (sturdy : w.library.failures.get? .destroy = none → l.failures.get? .destroy = none)
    (calls : ∃ cs, l.calls = w.library.calls ++ cs ∧ ∀ c ∈ cs, c.Proper t w.library) :
    Owns t { w with library := l } := by
  refine hw.ofLibrary (hw.coherent.renewed h) (hw.coherent.remembers_renewed h) (fun k p a => ⟨fun ha => ?_,
    hw.coherent.has_renewed h⟩) (fun i c p m hi hkind hp hm hmo hr => ?_) sturdy calls
  · have ho := ha.2
    have hh := ha.1
    rw [h.origins] at ho
    split at ho
    · cases ho
    · rename_i hno
      rw [h.handles, if_neg hno] at hh
      split at hh
      · cases hh
      · exact ⟨hh, ho⟩
  · rw [h.listed, if_neg]
    · exact hr
    · -- a resultset that is wrapped would be a child of the statement
      intro e
      have hpid := hw.unique p id m n hm hl hmo (hw.owned_of_stmts hl (hn ▸ hk)) (e.symm.trans hn.symm)
      subst hpid
      obtain ⟨q, hq, hmem⟩ := hf.parent_live hi.1 hp
      rw [hq.unique hl] at hmem
      exact hc i hmem c hi hkind

end Owns
end DbClient
