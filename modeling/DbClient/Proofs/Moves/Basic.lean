import DbClient.Bind.Transfer
import DbClient.Proofs.Forest.Sound
import DbClient.Proofs.Quiet.World

/-! The moves of which all operations are made. A move goes from one world to another and from the nodes
that are held, one for each wrapper, to those that are held after it. Between moves the parts of a world
agree with each other; within a move they need not. -/
namespace DbClient

/-- The terms on which the client is used. -/
structure Terms where
  /-- The application wraps native handles itself and calls the native library. -/
  foreign : Bool
  /-- Destruction is made to fail. -/
  faults : Bool

namespace Node

/-- The buffers of the statement whose data a node keeps. -/
def buffers (n : Node) : List Nat :=
  match n.extra with
  | some (.statement d) => d.binds.buffers
  | _ => []

/-- The node with other data of a statement. -/
def keeping (d : StatementData) (n : Node) : Node := { n with extra := some (.statement d) }

/-- The node keeps the data of a statement. -/
def Keeps (n : Node) (d : StatementData) : Prop := n.extra = some (.statement d)

end Node

/-- The array of a statement keeps its size, or it comes to another one: any size while nothing is bound, and
then none beyond the one at the first bind. -/
def StatementData.Resized (d d' : StatementData) : Prop :=
  d'.arraySize = d.arraySize ∧ d'.initialArraySize = d.initialArraySize ∨
    1 ≤ d'.arraySize ∧ if d.binds.isEmpty then d'.initialArraySize = d'.arraySize
      else d'.initialArraySize = d.initialArraySize ∧ d'.arraySize ≤ d.initialArraySize

/-- A plan is made for a variable as it is when it is bound, and for the greatest array that the statement can
come to. -/
def BindPlan.MadeFor (plan : BindPlan) (d : StatementData) (w : World) : Prop :=
  ∃ v kind size, w.vars.get? plan.var = some v ∧
    plan = .ofVar plan.name plan.var plan.direction kind size (max d.arraySize d.initialArraySize) v

namespace World

/-- No resultset is wrapped below a node. -/
def Cleared (w : World) (n : Node) : Prop := ∀ c ∈ n.children, ∀ m, w.Live c m → m.kind ≠ .resultset

/-- The native handle of the node that a link leads to, null without one. -/
def nativeOf (w : World) (parent : Option Nat) : Address := ((parent.bind w.nodes.get?).map Node.native).getD .null

/-- The world after an object has been bound: the data of the statement know it, and the buffer of the one
that it replaces is gone. -/
def rebound (id : Nat) (d : StatementData) (o : BindObject) (w : World) : World :=
  let (old, binds) := d.binds.add o d.allowRebinding
  (w.modifyNode id (Node.keeping { d with binds := binds })).freeBuffers (old.map BindObject.buffer).toList

end World

open World

/-- One move. -/
inductive Move (t : Terms) : Multiset Nat → World → Multiset Nat → World → Prop
  | quiet {hs w w'} (h : Quiet w w') : Move t hs w hs w'
  | foreign {hs w w'} (ht : t.foreign = true) (h : Still w w') : Move t hs w hs w'
  | fault {hs w} (ht : t.faults = true) (e : NativeError) :
      Move t hs w hs { w with library := w.library.failNext .destroy e }
  | openEnv {hs w} {e : EnvState} (he : e.store = ∅) : Move t hs w hs { w with envs := w.envs.add e }
  | acquire {hs w id n} (hl : w.Live id n) : Move t hs w (id ::ₘ hs) (Wrapper.acquire id w).2
  | drop {hs w} (id : Nat) : Move t (id ::ₘ hs) w hs (Wrapper.drop ⟨some id⟩ w)
  | release {hs w id n} (hl : w.Live id n) : Move t hs w hs (w.release id).2
  /-- The application wraps a handle. -/
  | wrap {hs w} {node : Node} (ht : t.foreign = true) (hf : Fits node w) (hh : node.holders = 1) :
      Move t hs w (w.nodes.next ::ₘ hs) (w.grow node)
  /-- A handle is created and wrapped at once. -/
  | adopt {hs w} {node : Node} {l : Library}
      (hc : Library.create node.kind (w.nativeOf node.parent) w.library = (some node.native, l))
      (hf : Fits node w) (hh : node.holders = 1) (ho : node.owned = true) (hx : node.extra = none) :
      Move t hs w (w.nodes.next ::ₘ hs) (World.grow node { w with library := l })
  /-- A handle is created under a number that the application has wrapped before; it may be destroyed at once. -/
  | known {hs w} {kind : HandleKind} {parent native : Address} {l l' : Library} {env : Nat}
      (hc : Library.create kind parent w.library = (some native, l)) (hs' : (w.stored? env native).isSome)
      (hl : l' = l ∨ l' = (Library.destroy kind native l).2) : Move t hs w hs { w with library := l' }
  /-- A resultset of a statement is wrapped. -/
  | lend {hs w p m} {node : Node} {st : NativeStatement} (hl : w.Live p m) (hp : node.parent = some p)
      (hst : w.library.stmts.get? m.native = some st) (hr : node.native ∈ st.resultsets)
      (hf : Fits node w) (hh : node.holders = 1) (ho : node.owned = false) (hk : node.kind = .resultset)
      (hx : node.extra = none) : Move t hs w (w.nodes.next ::ₘ hs) (w.grow node)
  /-- A node keeps something else, and the buffers of a statement go with its data. -/
  | keep {hs w id n} {e : Option Extra} (hl : w.Live id n)
      (he : ∀ d, e = some (.statement d) → d = .fresh ∧ n.owned = true) :
      Move t hs w hs ((w.modifyNode id fun n => { n with extra := e }).freeBuffers n.buffers)
  /-- The settings and the stage of a statement change; no text comes to be prepared, and none is lost. -/
  | tune {hs w id n} {d d' : StatementData} (hl : w.Live id n) (hx : n.Keeps d) (hb : d'.binds = d.binds)
      (hs' : d'.sql = d.sql)
      (hr : Status.prepared.rank ≤ d'.status.rank ↔ Status.prepared.rank ≤ d.status.rank) (ha : d.Resized d') :
      Move t hs w hs (w.modifyNode id (Node.keeping d'))
  /-- All that was bound goes, before a text is prepared. -/
  | close {hs w id n} {d : StatementData} (sql : String) (hl : w.Live id n) (hx : n.Keeps d) :
      Move t hs w hs ((w.modifyNode id (Node.keeping (d.reset sql))).freeBuffers d.binds.buffers)
  /-- A text is prepared. -/
  | renew {hs w id n} {d : StatementData} {sql : String} {mode : PrepareMode} {l : Library} (hl : w.Live id n)
      (hx : n.Keeps (d.reset sql)) (hr : w.Cleared n)
      (hp : Library.prepare n.native sql mode w.library = (some (), l)) :
      Move t hs w hs (World.modifyNode id (Node.keeping { d.reset sql with status := .ofMode mode })
        { w with library := l })
  /-- An object is bound. -/
  | bind {hs w id n} {d : StatementData} {plan : BindPlan} {l : Library} {log : List Event} (hl : w.Live id n)
      (hx : n.Keeps d) (hs' : Status.prepared.rank ≤ d.status.rank)
      (hn : (∃ o ∈ d.binds.objects, o.name = plan.name) → d.allowRebinding = true)
      (hb : Library.bind n.native (BindObject.place plan w).1.desc w.library = (some (), l))
      (hv : plan.MadeFor d w) (hfit : plan.Fits) :
      Move t hs w hs (World.rebound id d (BindObject.place plan w).1
        { (BindObject.place plan w).2 with library := l, log := log })
  /-- A statement is executed. -/
  | execute {hs w id n} {iters : Nat} {results : List HookResult} {memory : Memory} {l : Library}
      {log : List Event} (hl : w.Live id n) (hr : w.Cleared n)
      (he : Library.execute n.native iters w.memory w.library = (some (results, memory), l)) :
      Move t hs w hs { w with library := l, memory := memory, log := log }

/-- A path of moves. -/
def Path (t : Terms) (a b : Multiset Nat × World) : Prop :=
  Relation.ReflTransGen (fun x y => Move t x.1 x.2 y.1 y.2) a b

namespace World.Still
variable {w w' : World} {id : Nat}

lemma of_quiet (h : Quiet w w') : Still w w' := of_nodes h.nodes h.releases h.envs h.stores

/-- A step that changes neither nodes nor environments. -/
lemma of_eq (nodes : w'.nodes = w.nodes) (releases : w'.releases = w.releases) (envs : w'.envs = w.envs) :
    Still w w' := of_nodes nodes releases (fun h => envs ▸ h) fun env => by simp only [store?, envs]

lemma extra (e : Option Extra) (id : Nat) (w : World) :
    Still w (w.modifyNode id fun n => { n with extra := e }) :=
  modifyNode (f := fun n => { n with extra := e }) (fun _ => rfl) id w

lemma keeping (d : StatementData) (id : Nat) (w : World) : Still w (w.modifyNode id (Node.keeping d)) :=
  extra _ id w

lemma freeBuffers (buffers : List Nat) (w : World) : Still w (w.freeBuffers buffers) := of_eq rfl rfl rfl

lemma rebound (id : Nat) (d : StatementData) (o : BindObject) (w : World) : Still w (w.rebound id d o) :=
  (keeping _ id w).trans (freeBuffers _ _)

/-- No child comes to wrap a resultset. -/
lemma clears {n m : Node} (h : Still w w') (hc : w.Cleared n) (hm : m.children = n.children) : w'.Cleared m := by
  intro c hcm k hk hkind
  obtain ⟨k', hk', hcore⟩ := h.live_back hk
  exact hc c (hm ▸ hcm) k' hk' ((congrArg Node.kind hcore).trans hkind)

/-- No resultset comes to be wrapped below a node. -/
lemma cleared (h : Still w w') (hc : ∀ m, w.Live id m → w.Cleared m) : ∀ m, w'.Live id m → w'.Cleared m := by
  intro m hm
  obtain ⟨m', hm', hcore⟩ := h.live_back hm
  exact h.clears (hc m' hm') (congrArg Node.children hcore).symm

end World.Still

variable {t : Terms} {hs hs' : Multiset Nat} {w w' : World}

/-- Each move keeps a world sound. -/
theorem Move.sound (h : Move t hs w hs' w') (hw : Sound hs w) : Sound hs' w' := by
  cases h with
  | quiet h => exact hw.still (.of_quiet h)
  | foreign _ h => exact hw.still h
  | fault _ e => exact hw.still (.of_eq rfl rfl rfl)
  | openEnv he => exact hw.openEnv he
  | acquire hl => exact hw.acquire hl
  | drop id => exact hw.drop
  | release hl => exact hw.release hl
  | wrap _ hf hh => exact hw.grow hf hh
  | @adopt _ _ node l _ hf hh =>
    have hlib : Sound hs { w with library := l } := hw.still (.of_eq rfl rfl rfl)
    exact hlib.grow ⟨hf.fresh, hf.bare, hf.parent, hf.env, hf.unknown⟩ hh
  | known => exact hw.still (.of_eq rfl rfl rfl)
  | lend _ _ _ _ hf hh => exact hw.grow hf hh
  | keep hl => exact hw.still ((Still.extra _ _ w).trans (.freeBuffers _ _))
  | tune hl => exact hw.still (.keeping _ _ _)
  | close sql hl => exact hw.still ((Still.keeping _ _ w).trans (.freeBuffers _ _))
  | @renew _ _ id _ d sql mode l =>
    have hlib : Still w { w with library := l } := .of_eq rfl rfl rfl
    exact hw.still (hlib.trans (.keeping _ id _))
  | @bind _ _ id _ d plan l log =>
    have hmade : Still w { (BindObject.place plan w).2 with library := l, log := log } := .of_eq rfl rfl rfl
    exact hw.still (hmade.trans (.rebound id d _ _))
  | execute => exact hw.still (.of_eq rfl rfl rfl)

theorem Path.sound {a b : Multiset Nat × World} (h : Path t a b) (hw : Sound a.1 a.2) : Sound b.1 b.2 := by
  induction h with
  | refl => exact hw
  | tail _ hm ih => exact hm.sound ih

end DbClient
