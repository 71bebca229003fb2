import DbClient.Proofs.Bindings.Moves
import DbClient.Proofs.Scope.Locality
import DbClient.Proofs.Moves.Binding
import DbClient.Proofs.Moves.Creation
import DbClient.Proofs.Ownership.Chains
import DbClient.Proofs.Ownership.Kinds

/-! The steps of which operations are made, with the nodes, variables and calls that each of them has to do with. A
scope says which steps an operation may take, and what a scope leaves out, steps within it leave alone. Every step is a
path of moves, so that what holds along moves holds along steps. -/
namespace DbClient
open World

/-! ### Calls -/

namespace Invocation

/-- A call that changes no more of the library than the state of one handle. What comes and goes with a call that
succeeds, and the settings of statements, change together with other parts of the world. -/
def Steady (i : Invocation) (l : Library) : Prop :=
  match i with
  | create .. | prepare .. | bind .. | execute .. => (i.run l).1 = false
  | setAttr _ attr _ => attr = .bindArraySize ∨ attr = .fetchMode → (i.run l).1 = false
  | destroy .. => False
  | _ => True

/-- A call that does not change what is kept of its handle. -/
def Reads : Invocation → Prop
  | create .. | getAttr .. => True
  | _ => False

variable {i : Invocation} {l : Library} {known : Address → Prop}

/-- A steady call is quiet. -/
lemma quiet (hs : i.Steady l) (hk : known i.handle ∨ ∃ kind, i = .create kind .null) :
    l.Quiet known (i.run l).2 := by
  have hnone : ∀ {α : Type} {p : Option α × Library}, (gave p).1 = false → p = (none, p.2) := fun h => by
    rw [← Option.isNone_iff_eq_none.mp (Option.isSome_eq_false_iff.mp h)]
  have hhandle : (∀ kind, i ≠ .create kind .null) → known i.handle := fun h =>
    hk.resolve_right fun ⟨kind, he⟩ => h kind he
  cases i with
  | create kind parent =>
    exact Library.Quiet.create (hk.imp_right fun ⟨_, he⟩ => by cases he; rfl) (hnone hs)
  | destroy => exact hs.elim
  | prepare => exact .prepare (hhandle nofun) (hnone hs)
  | bind => exact .bind (hhandle nofun) (hnone hs)
  | execute => exact .execute (hhandle nofun) (hnone hs)
  | getAttr h attr => exact .getAttr (hhandle nofun) attr l
  | setAttr h attr v => exact .setAttr (hhandle nofun) attr v l
  | register stmt name ty maxLength => exact .register (hhandle nofun) name ty maxLength l
  | dataSize stmt name pos => exact .dataSize (hhandle nofun) name pos l
  | setDataSize stmt name pos size => exact .setDataSize (hhandle nofun) name pos size l
  | resultset stmt => exact .resultset (hhandle nofun) l
  | nextResultset stmt => exact .nextResultset (hhandle nofun) l
  | fetch rs move => exact .fetch (hhandle nofun) move l
  | currentRow rs => exact .currentRow (hhandle nofun) l
  | columnCount rs => exact .columnCount (hhandle nofun) l
  | columnValue rs index => exact .columnValue (hhandle nofun) index l
  | breakCall conn => exact .breakCall (hhandle nofun) l

end Invocation

/-! ### Steps -/

/-- What an operation may do. -/
structure Scope where
  /-- The nodes that may be changed and released, and whose handles may be called with. -/
  node : Nat → Prop
  /-- The nodes that may come to have other holders, -/
  count : Nat → Prop
  /-- among them all that may be changed. -/
  counted : ∀ i, node i → count i
  /-- The statements that may be given another text. -/
  text : Nat → Prop
  /-- The variables that may be written. -/
  var : Nat → Prop
  /-- Callbacks may be registered and removed. -/
  registry : Prop
  /-- Handles may be created. -/
  creates : Prop

/-- What is done with one live node, with its native handle and with its buffers. -/
inductive Work (text : Prop) (id : Nat) (n : Node) : World → World → Prop
  | call {w} (i : Invocation) (hi : i.handle = n.native) (hs : i.Steady w.library) :
      Work text id n w { w with library := (i.run w.library).2 }
  | fill {w} {d : StatementData} {buffer : Nat} (offset : Nat) (bytes : List UInt8) (hx : n.Keeps d)
      (hb : buffer ∈ d.binds.buffers) : Work text id n w (w.writeBuffer buffer offset bytes)
  /-- A buffer is made and freed again. -/
  | scratch {w} (bytes : List UInt8) : Work text id n w { w with memory := (w.memory.add bytes).erase w.memory.next }
  /-- Extra information of the application comes or goes. -/
  | keep {w} {e : Option Extra} (he : ∀ d, e ≠ some (.statement d)) :
      Work text id n w ((w.modifyNode id fun n => { n with extra := e }).freeBuffers n.buffers)
  /-- The stage changes, or a setting of which the native library knows nothing. -/
  | tune {w} {d d' : StatementData} (hx : n.Keeps d) (hb : d'.binds = d.binds) (hs : d'.sql = d.sql)
      (hr : Status.prepared.rank ≤ d'.status.rank ↔ Status.prepared.rank ≤ d.status.rank)
      (ha : d'.arraySize = d.arraySize ∧ d'.initialArraySize = d.initialArraySize)
      (hm : d'.fetchMode = d.fetchMode) : Work text id n w (w.modifyNode id (Node.keeping d'))
  /-- The array gets another size within its limit, here and there. -/
  | resize {w} {d : StatementData} {size : Nat} {l : Library} (hx : n.Keeps d)
      (hc : Library.setAttr n.native .bindArraySize (.int .uint64 (Fixed.wrap .uint64 size)) w.library = (some (), l))
      (hz : ¬(size < 1 ∨ (if d.binds.isEmpty then BindIndex.maxSize else d.initialArraySize) < size)) :
      Work text id n w (World.modifyNode id (Node.keeping { d with
        arraySize := size, initialArraySize := if d.binds.isEmpty then size else d.initialArraySize })
        { w with library := l })
  /-- The fetch mode changes, here and there. -/
  | turn {w} {d : StatementData} {mode : FetchMode} {l : Library} (hx : n.Keeps d)
      (hc : Library.setAttr n.native .fetchMode (.bool (mode = .scrollable)) w.library = (some (), l)) :
      Work text id n w (World.modifyNode id (Node.keeping { d with fetchMode := mode }) { w with library := l })
  /-- The fetch mode changes for a node without data. -/
  | mark {w} {v : Value} {l : Library} (hx : ∀ d, ¬n.Keeps d)
      (hc : Library.setAttr n.native .fetchMode v w.library = (some (), l)) :
      Work text id n w { w with library := l }
  | close {w} {d : StatementData} (ht : text) (sql : String) (hx : n.Keeps d) :
      Work text id n w ((w.modifyNode id (Node.keeping (d.reset sql))).freeBuffers d.binds.buffers)
  | renew {w} {d : StatementData} {sql : String} {mode : PrepareMode} {l : Library} (hx : n.Keeps (d.reset sql))
      (hr : w.Cleared n) (hp : Library.prepare n.native sql mode w.library = (some (), l)) :
      Work text id n w (World.modifyNode id (Node.keeping { d.reset sql with status := .ofMode mode })
        { w with library := l })
  | bind {w} {d : StatementData} {plan : BindPlan} {l : Library} {log : List Event} (hx : n.Keeps d)
      (hs' : Status.prepared.rank ≤ d.status.rank)
      (hn : (∃ o ∈ d.binds.objects, o.name = plan.name) → d.allowRebinding = true)
      (hb : Library.bind n.native (BindObject.place plan w).1.desc w.library = (some (), l))
      (hv : plan.MadeFor d w) (hfit : plan.Fits) : Work text id n w (World.rebound id d (BindObject.place plan w).1
        { (BindObject.place plan w).2 with library := l, log := log })
  | execute {w} {d : StatementData} {iters : Nat} {results : List HookResult} {memory : Memory} {l : Library}
      {log : List Event} (hx : n.Keeps d) (hs : Status.prepared.rank ≤ d.status.rank) (hr : w.Cleared n)
      (he : Library.execute n.native iters w.memory w.library = (some (results, memory), l)) :
      Work text id n w { w with library := l, memory := memory, log := log }

/-- A step of an operation. -/
inductive StepWithin (S : Scope) : World → World → Prop
  | log {w} (log : List Event) : StepWithin S w { w with log := log }
  /-- The last error is taken. -/
  | forget {w} : StepWithin S w { w with library := { w.library with error := none } }
  /-- A call that only reads, with the handle of any live node. -/
  | look {w id n} (hl : w.Live id n) (i : Invocation) (hi : i.handle = n.native) (hr : i.Reads)
      (hs : i.Steady w.library) : StepWithin S w { w with library := (i.run w.library).2 }
  /-- An environment is asked for, and there is none. -/
  | refuse {w} (hs : (Invocation.create .environment .null).Steady w.library) :
      StepWithin S w { w with library := ((Invocation.create .environment .null).run w.library).2 }
  | write {w} {x : Nat} (hx : S.var x) (v : HostVar) : StepWithin S w (w.setVar x v)
  | enroll {w} {f : EnvState → EnvState} (hr : S.registry) (hf : ∀ e, (f e).store = e.store) (env : Nat) :
      StepWithin S w (w.modifyEnv env f)
  | openEnv {w} {e : EnvState} (hc : S.creates) (he : e.store = ∅) (hn : e.callbacks = ∅) :
      StepWithin S w { w with envs := w.envs.add e }
  | acquire {w id n} (hc : S.count id) (hl : w.Live id n) : StepWithin S w (Wrapper.acquire id w).2
  /-- A wrapper goes; the last one takes the node along. -/
  | drop {w id} (hc : S.count id) (hn : ∀ n, w.Live id n → n.holders = 1 → S.node id) :
      StepWithin S w (Wrapper.drop ⟨some id⟩ w)
  | release {w id n} (hn : S.node id) (hl : w.Live id n) : StepWithin S w (w.release id).2
  /-- A handle is created and wrapped. -/
  | adopt {w} {node : Node} {l : Library} (hc : S.creates)
      (hl : Library.create node.kind (w.nativeOf node.parent) w.library = (some node.native, l))
      (hf : Fits node w) (hh : node.holders = 1) (ho : node.owned = true) (hx : node.extra = none) :
      StepWithin S w (World.grow node { w with library := l })
  /-- A statement is created, with data of its own. -/
  | begin {w} {node : Node} {l : Library} (hc : S.creates) (hk : node.kind = .statement)
      (hl : Library.create node.kind (w.nativeOf node.parent) w.library = (some node.native, l))
      (hf : Fits node w) (hh : node.holders = 1) (ho : node.owned = true) (hx : node.extra = none) :
      StepWithin S w ((World.grow node { w with library := l }).modifyNode w.nodes.next (Node.keeping .fresh))
  | lend {w p m} {node : Node} {st : NativeStatement} (hn : S.node p) (hl : w.Live p m) (hp : node.parent = some p)
      (hst : w.library.stmts.get? m.native = some st) (hr : node.native ∈ st.resultsets) (hf : Fits node w)
      (hh : node.holders = 1) (ho : node.owned = false) (hk : node.kind = .resultset) (hx : node.extra = none)
      (ha : node.onRelease = .nothing) : StepWithin S w (w.grow node)
  | work {w w' id n} (hn : S.node id) (hl : w.Live id n) (h : Work (S.text id) id n w w') : StepWithin S w w'

/-- What an operation does: steps within a scope, one after the other. -/
def StepsWithin (S : Scope) : World → World → Prop := Relation.ReflTransGen (StepWithin S)

variable {S : Scope} {hs : Multiset Nat} {w w' w'' : World} {id : Nat} {n : Node} {text : Prop}

/-! ### Steps are paths -/

namespace World

/-- The forest does not depend on the native library, -/
lemma Forest.ofLibrary (hw : w.Forest) (l : Library) : Forest { w with library := l } :=
  hw.congr hw.table hw.envs (fun _ => rfl) fun _ => rfl

/-- nor does it matter for what fits into it. -/
lemma Fits.ofLibrary {node : Node} (hf : Fits node w) (l : Library) : Fits node { w with library := l } :=
  ⟨hf.fresh, hf.bare, hf.parent, hf.env, hf.unknown⟩

end World

/-- Work on a live node is a path of moves. -/
theorem Work.path (hl : w.Live id n) (h : Work text id n w w') : Path ⟨false, true⟩ (hs, w) (hs, w') := by
  have hset : ∀ {attr v l}, Library.setAttr n.native attr v w.library = (some (), l) →
      Path ⟨false, true⟩ (hs, w) (hs, { w with library := l }) := fun {attr v l} hc => by
    have hq : w.library.Quiet w.Answers (Library.setAttr n.native attr v w.library).2 :=
      .setAttr ⟨id, n, hl, rfl⟩ attr v w.library
    rw [hc] at hq
    exact Relation.ReflTransGen.single (.quiet (.ofLibrary hq))
  cases h with
  | call i hi hsteady =>
    exact Relation.ReflTransGen.single (.quiet (.ofLibrary (i.quiet hsteady (.inl ⟨id, n, hl, hi.symm⟩))))
  | fill offset bytes hx hb => exact Relation.ReflTransGen.single (.quiet (.writeBuffer _ _ _ _))
  | scratch bytes =>
    exact Relation.ReflTransGen.single (.quiet ⟨rfl, rfl, fun h => h, fun _ => rfl, .refl _, .add_erase _ _⟩)
  | keep he => exact Relation.ReflTransGen.single (.keep hl fun d h => absurd h (he d))
  | tune hx hb hs' hr ha => exact Relation.ReflTransGen.single (.tune hl hx hb hs' hr (.inl ha))
  | resize hx hc hz =>
    exact Relation.ReflTransGen.tail (hset hc)
      (.tune (w := { w with library := _ }) hl hx rfl rfl Iff.rfl (Statement.resized_of_within hz))
  | turn hx hc =>
    exact Relation.ReflTransGen.tail (hset hc)
      (.tune (w := { w with library := _ }) hl hx rfl rfl Iff.rfl (.inl ⟨rfl, rfl⟩))
  | mark _ hc => exact hset hc
  | close _ sql hx => exact Relation.ReflTransGen.single (.close sql hl hx)
  | renew hx hr hp => exact Relation.ReflTransGen.single (.renew hl hx hr hp)
  | bind hx hs' hn hb hv hfit => exact Relation.ReflTransGen.single (.bind hl hx hs' hn hb hv hfit)
  | execute hx hs' hr he => exact Relation.ReflTransGen.single (.execute hl hr he)

/-- A wrapper that nobody holds can be dropped in vain only. -/
lemma World.drop_of_not_held (hw : Sound hs w) (hid : id ∉ hs) : Wrapper.drop ⟨some id⟩ w = w := by
  have hzero : ∀ n, w.nodes.get? id = some n → n.holders = 0 := fun n hn =>
    (hw.counted.count id n hn).trans (Multiset.count_eq_zero_of_notMem hid)
  have hfix : ∀ n, w.nodes.get? id = some n → { n with holders := n.holders - 1 } = n := fun n hn => by
    rw [show n.holders - 1 = n.holders by rw [hzero n hn]]
  have hsame : w.modifyNode id (fun n => { n with holders := n.holders - 1 }) = w := by
    unfold World.modifyNode
    rw [hw.forest.table.modify_eq_self hfix]
  have hlast : ((w.nodes.get? id).any fun n => n.holders = 1) = false := by
    cases hn : w.nodes.get? id with
    | none => rfl
    | some n => simp [hzero n hn]
  unfold Wrapper.drop
  simp only [hlast, hsame, Bool.false_eq_true, if_false]

/-- A step is a path of moves, whatever is held. -/
theorem StepWithin.path (hw : Sound hs w) (h : StepWithin S w w') : ∃ hs', Path ⟨false, true⟩ (hs, w) (hs', w') := by
  cases h with
  | log log => exact ⟨hs, Relation.ReflTransGen.single (.quiet (.of_eq rfl rfl rfl rfl rfl))⟩
  | forget => exact ⟨hs, Relation.ReflTransGen.single (.quiet (.ofLibrary (.of_eq rfl rfl rfl rfl rfl rfl rfl rfl)))⟩
  | look hl i hi hr hsteady =>
    exact ⟨hs, Relation.ReflTransGen.single (.quiet (.ofLibrary (i.quiet hsteady (.inl ⟨_, _, hl, hi.symm⟩))))⟩
  | refuse hsteady =>
    exact ⟨hs, Relation.ReflTransGen.single (.quiet (.ofLibrary (Invocation.quiet hsteady (.inr ⟨_, rfl⟩))))⟩
  | write hx v => exact ⟨hs, Relation.ReflTransGen.single (.quiet (.of_eq rfl rfl rfl rfl rfl))⟩
  | enroll hr hf env => exact ⟨hs, Relation.ReflTransGen.single (.quiet (.modifyEnv hf env w))⟩
  | openEnv hc he hn => exact ⟨hs, Relation.ReflTransGen.single (.openEnv he)⟩
  | acquire hc hl => exact ⟨_, Relation.ReflTransGen.single (.acquire hl)⟩
  | @drop id hc hn =>
    by_cases hid : id ∈ hs
    · obtain ⟨rest, rfl⟩ := Multiset.exists_cons_of_mem hid
      exact ⟨rest, Relation.ReflTransGen.single (.drop id)⟩
    · rw [World.drop_of_not_held hw hid]
      exact ⟨hs, Relation.ReflTransGen.refl⟩
  | release hn hl => exact ⟨hs, Relation.ReflTransGen.single (.release hl)⟩
  | adopt hc hl hf hh ho hx => exact ⟨_, Relation.ReflTransGen.single (.adopt hl hf hh ho hx)⟩
  | @begin node l hc hk hl hf hh ho hx =>
    have hnode := (hw.forest.ofLibrary l).get?_grow_next (hf.ofLibrary l)
    have hbuffers : node.buffers = [] := by
      unfold Node.buffers
      rw [hx]
    have hkeep : Move ⟨false, true⟩ (w.nodes.next ::ₘ hs) (World.grow node { w with library := l })
        (w.nodes.next ::ₘ hs) (((World.grow node { w with library := l }).modifyNode w.nodes.next fun n =>
          { n with extra := some (.statement .fresh) }).freeBuffers node.buffers) :=
      .keep ⟨hnode, hf.fresh⟩ fun d hd => ⟨(Extra.statement.inj (Option.some.inj hd)).symm, ho⟩
    rw [hbuffers] at hkeep
    have hadopt : Path ⟨false, true⟩ (hs, w) (w.nodes.next ::ₘ hs, World.grow node { w with library := l }) :=
      Relation.ReflTransGen.single (.adopt hl hf hh ho hx)
    exact ⟨w.nodes.next ::ₘ hs, hadopt.tail hkeep⟩
  | lend hn hl hp hst hr hf hh ho hk hx => exact ⟨_, Relation.ReflTransGen.single (.lend hl hp hst hr hf hh ho hk hx)⟩
  | work hn hl h => exact ⟨hs, h.path hl⟩

/-! ### Standing worlds -/

/-- All that holds of a world between two operations. -/
structure Standing (w : World) : Prop where
  sound : ∃ hs, Sound hs w
  owns : Owns ⟨false, true⟩ w
  bindings : Bindings w
  chains : w.library.Chains

namespace Standing

lemma forest (hw : Standing w) : w.Forest := hw.sound.elim fun _ h => h.forest

lemma path {hs' : Multiset Nat} (hw : Standing w) (hsound : Sound hs w) (h : Path ⟨false, true⟩ (hs, w) (hs', w')) :
    Standing w' :=
  ⟨⟨hs', h.sound hsound⟩, h.owns rfl hsound hw.owns, h.bindings rfl hsound hw.owns hw.bindings,
    h.chains rfl hsound hw.owns hw.chains⟩

theorem step (hw : Standing w) (h : StepWithin S w w') : Standing w' := by
  obtain ⟨hs, hsound⟩ := hw.sound
  obtain ⟨hs', hpath⟩ := h.path hsound
  exact hw.path hsound hpath

theorem within (hw : Standing w) (h : StepsWithin S w w') : Standing w' := by
  induction h with
  | refl => exact hw
  | tail _ h ih => exact ih.step h

end Standing

namespace StepsWithin

lemma single (h : StepWithin S w w') : StepsWithin S w w' := Relation.ReflTransGen.single h

@[refl] lemma refl (w : World) : StepsWithin S w w := Relation.ReflTransGen.refl

lemma trans (h : StepsWithin S w w') (h' : StepsWithin S w' w'') : StepsWithin S w w'' :=
  Relation.ReflTransGen.trans h h'

lemma work (hn : S.node id) (hl : w.Live id n) (h : Work (S.text id) id n w w') : StepsWithin S w w' :=
  single (.work hn hl h)

lemma log (es : List Event) (w : World) : StepsWithin S w { w with log := es } := single (.log es)

/-- What one step keeps is kept by all that an operation does. -/
theorem induct {P : World → Prop} (hw : Standing w) (hP : P w)
    (step : ∀ v v', Standing v → P v → StepWithin S v v' → P v') (h : StepsWithin S w w') : P w' := by
  suffices Standing w' ∧ P w' from this.2
  induction h with
  | refl => exact ⟨hw, hP⟩
  | tail _ h ih => exact ⟨ih.1.step h, step _ _ ih.1 ih.2 h⟩

end StepsWithin
end DbClient
