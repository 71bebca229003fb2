import DbClient.Proofs.Application.OwnershipLaw
import DbClient.Proofs.Application.BindSetLaw
import DbClient.Proofs.Scope.Opening

/-! The operations of an application as steps: what each of them does within a scope that allows it, and whose error
it returns. What the application does with variables of its own, and with the script of the library, is none. -/
namespace DbClient
open Act World

variable {α β : Type} {S : Scope} {o w w' : World} {id : Nat} {n : Node}

/-! ### Wrappers -/

namespace Wrapper
variable {h : Wrapper}

lemma tells_setExtra (hn : ∀ id, h.node = some id → S.node id) {e : Extra} (he : ∀ d, e ≠ .statement d) :
    Tells S w (h.setExtra e) w := by
  unfold setExtra
  apply Tells.get
  cases hl : h.liveNode? w with
  | none => exact Tells.throw (.refl w) rfl
  | some p =>
    obtain ⟨hid, hlive⟩ := liveNode?_eq_some.mp hl
    exact Tells.update _ (.work (hn p.1 hid) hlive (.keep (e := some e) fun d hd => he d (Option.some.inj hd)))

lemma within_takeExtra (hn : ∀ id, h.node = some id → S.node id) (ty : ExtraType) :
    StepsWithin S w (h.takeExtra ty w).2 := by
  unfold takeExtra
  cases hl : h.liveNode? w with
  | none => exact .refl w
  | some p =>
    obtain ⟨id, n⟩ := p
    obtain ⟨hid, hlive⟩ := liveNode?_eq_some.mp hl
    dsimp only [World.takeExtra]
    rw [hlive.1, Option.bind_some]
    cases hx : n.extra with
    | none => exact .refl w
    | some e =>
      dsimp only
      split
      · rename_i hty
        -- what can be taken is no data of a statement, so that no buffers go with it
        have hbuffers : n.buffers = [] := by
          unfold Node.buffers
          rw [hx]
          cases e with
          | statement d => cases ty <;> cases hty
          | _ => rfl
        have hkeep : Work (S.text id) id n w
            ((w.modifyNode id fun n => { n with extra := none }).freeBuffers n.buffers) := .keep nofun
        rw [hbuffers] at hkeep
        exact .work (hn id hid) hlive hkeep
      · exact .refl w

lemma within_findChild (hw : w.Forest) (hS : ∀ id, h.node = some id → S.Covers id w) (p : Node → Bool) :
    StepsWithin S w (h.findChild p w).2 := by
  unfold findChild
  cases hl : h.liveNode? w with
  | none => exact .refl w
  | some q =>
    obtain ⟨id, n⟩ := q
    obtain ⟨hid, hlive⟩ := liveNode?_eq_some.mp hl
    dsimp only
    cases hc : n.children.find? fun c => (w.nodes.get? c).any p with
    | none => exact .refl w
    | some c =>
      have hchild : c ∈ n.children := List.mem_of_find?_eq_some hc
      obtain ⟨-, m, hm, -⟩ := hw.child hlive.1 hchild
      exact .single (.acquire (S.counted c ((hS id hid).below w (.refl w) n c hlive hchild)) hm)

end Wrapper

/-! ### Calls -/

/-- A resultset leads to a node that owns nothing, as long as it lives. -/
def Resultset.Lent (rs : Resultset) (w : World) : Prop :=
  ∀ id n, rs.handle.node = some id → w.Live id n → n.owned = false

/-- The cursor of a resultset is there as long as its node lives. -/
lemma Resultset.Lent.cursor {rs : Resultset} (hr : rs.Lent w) (hw : Standing w) :
    ∀ id n, rs.handle.node = some id → w.Live id n → (w.library.rsets.get? n.native).isSome := fun id n hid hl => by
  obtain ⟨-, p, m, -, -, -, hlisted⟩ := hw.owns.lent id n hl (hr id n hid hl)
  exact (hw.chains m.native).2 n.native hlisted

lemma ResultsetCall.tells {rs : Resultset} (hn : ∀ id, rs.handle.node = some id → S.node id) (hw : Standing w)
    (hr : rs.Lent w) (k : ResultsetCall) : Tells S w (k.perform rs) w := by
  cases k with
  | next => exact (Resultset.tells_fetch hn .next).giving
  | prev => exact (Resultset.tells_scrolling (f := fun _ => rs.fetch .prev) (Resultset.tells_fetch hn .prev)).giving
  | first => exact (Resultset.tells_scrolling (f := fun _ => rs.fetch .first) (Resultset.tells_fetch hn .first)).giving
  | last => exact (Resultset.tells_scrolling (f := fun _ => rs.fetch .last) (Resultset.tells_fetch hn .last)).giving
  | seek mode offset =>
    exact (Resultset.tells_scrolling (f := fun _ => rs.fetch _) (Resultset.tells_fetch hn _)).giving
  | currentRow => exact (Resultset.tells_currentRow hn (hr.cursor hw)).giving
  | columnCount => exact (Resultset.tells_columnCount hn).giving
  | get index r => exact (Resultset.tells_get hn index r).giving

namespace StatementCall

/-- The call gives the statement a new text, or tries to. -/
def Prepares : StatementCall → Prop
  | prepare .. | execute _ => True
  | _ => False

/-- A call of a statement stays within a scope that covers the statement, and allows what the call does beyond that. -/
theorem tells {s : Statement} {k : StatementCall} (hw : Standing w) (he : w.Housed s.env)
    (hS : ∀ id, s.handle.node = some id → S.Covers id w) (hc : ∀ id, s.conn.handle.node = some id → S.count id)
    (ht : k.Prepares → ∀ id, s.handle.node = some id → S.text id) (hv : s.Writes S w) :
    Tells S w (k.perform s) w := by
  have hn : ∀ id, s.handle.node = some id → S.node id := fun id hid => (hS id hid).node
  cases k with
  | connection =>
    have hclone : StepsWithin S w (s.conn.clone w).2 := StepsWithin.clone hc
    exact (Tells.modifyGet s.conn.clone hclone).giving
  | prepare mode sql =>
    exact (Statement.tells_prepare hw (fun id hid => ⟨hS id hid, ht trivial id hid⟩) mode sql).giving
  | execute sql => exact (Statement.tells_execute hw (fun id hid => ⟨hS id hid, ht trivial id hid⟩) sql).giving
  | executePrepared => exact (Statement.tells_executePrepared hw hS hv).giving
  | bind index var direction kind size => exact (Statement.tells_bind hn index var direction kind size).giving
  | register name ty maxLength => exact (Statement.tells_register hn name ty maxLength).giving
  | setArraySize size => exact (Statement.tells_setArraySize hn size).giving
  | allowRebinding allow => exact (Statement.tells_allowRebinding hn allow).giving
  | setFetchMode mode => exact (Statement.tells_setFetchMode hn mode).giving
  | affectedRows => exact (Statement.tells_affectedRows hn).giving
  | resultset =>
    exact (Statement.tells_takeResultset Statement.asks_resultset Statement.asksBy_resultset hw hS he _).giving
  | nextResultset =>
    exact (Statement.tells_takeResultset Statement.asks_nextResultset Statement.asksBy_nextResultset hw hS he _).giving
  | releaseResultsets => exact (Statement.tells_releaseResultsets hS).giving

end StatementCall

lemma ItemCall.tells {i : Item} {k : ItemCall} (hw : Standing w)
    (hS : ∀ id, i.wrapper.node = some id → S.Covers id w) (hd : k = .drop → StepsWithin S w (i.drop w))
    (hk : ∀ e, k = .setExtra e → ∀ d, e ≠ .statement d) : Tells S w (k.perform i) w := by
  have hn : ∀ id, i.wrapper.node = some id → S.node id := fun id hid => (hS id hid).node
  cases k with
  | clone =>
    have hclone : StepsWithin S w (i.clone w).2 := by
      cases i <;> exact StepsWithin.clone fun id hid => S.counted id (hn id hid)
    exact (Tells.modifyGet i.clone hclone).giving
  | drop => exact (Tells.update i.drop (hd rfl)).giving
  | setExtra e => exact (Wrapper.tells_setExtra hn (hk e rfl)).giving
  | takeExtra ty => exact (Tells.modifyGet (i.wrapper.takeExtra ty) (Wrapper.within_takeExtra hn ty)).giving
  | findChild p =>
    exact (Tells.modifyGet (i.wrapper.findChild p) (Wrapper.within_findChild hw.forest hS p)).giving
  | releaseChildren p =>
    have hrelease : StepsWithin S w (i.wrapper.releaseChildren p w).2 :=
      StepsWithin.releaseChildren p fun id n c hid hl hc => (hS id hid).below w (.refl w) n c hl hc
    exact (Tells.modifyGet (i.wrapper.releaseChildren p) hrelease).giving

/-! ### Operations -/

namespace Operation

/-- What the application does with variables of its own, and with the script of the library. -/
def Aside : Operation → Prop
  | newVar _ | setVar .. | library _ => True
  | _ => False

/-- The operation may change the callbacks of an environment by itself. -/
def Enrolls : Operation → Prop
  | registry _ (.set ..) | registry _ (.remove _) | registry _ .clear | environment _ .cleanup
  | item (.environment _) .drop | connection _ (.setFailoverHandler _) => True
  | _ => False

/-- A wide scope allows an operation. -/
structure Within (S : Scope) (op : Operation) (w : World) : Prop where
  wide : S.Wide
  text : ∀ id, op.Prepares id → S.text id
  fresh : ∀ id, w.nodes.next ≤ id → S.text id
  registry : op.Enrolls → S.registry

end Operation

namespace Item

/-- An object is what it has to be for its calls: its environment exists, and a resultset is lent. -/
def Fine (w : World) : Item → Prop
  | environment e => w.Housed e.env
  | connection c => w.Housed c.env
  | statement s => w.Housed s.env
  | resultset rs => rs.Lent w
  | handle _ => True

lemma within_drop (hS : S.Wide) (i : Item) (hr : ∀ e, i = .environment e → S.registry) :
    StepsWithin S w (i.drop w) := by
  cases i with
  | environment e => exact Environment.within_drop (hr e rfl) hS
  | statement s => exact Statement.within_drop (Wrapper.droppable_of_wide hS) (Wrapper.droppable_of_wide hS)
  | _ => exact StepsWithin.drop (Wrapper.droppable_of_wide hS)

end Item

lemma EnvironmentCall.tells {e : Environment} {k : EnvironmentCall} (hS : S.Wide) (hw : Standing w)
    (he : w.Housed e.env) (hr : k = .cleanup → S.registry) : Tells S w (k.perform e) w := by
  cases k with
  | cleanup =>
    exact (Tells.modifyGet e.cleanup
      (Environment.within_cleanup (hr rfl) (Wrapper.droppable_of_wide hS))).giving
  | connect params => exact (Connection.tells_connect hS hw he params).giving
  | allocate kind parent => exact (Environment.tells_allocate hS hw he kind _).giving

lemma ConnectionCall.tells {c : Connection} {k : ConnectionCall} (hS : S.Wide) (hw : Standing w) (he : w.Housed c.env)
    (ht : ∀ id, w.nodes.next ≤ id → S.text id) (hr : ∀ handler, k = .setFailoverHandler handler → S.registry) :
    Tells S w (k.perform c) w := by
  have hn : ∀ id, c.handle.node = some id → S.node id := fun id _ => hS.node id
  cases k with
  | statement => exact (Statement.tells_create hS hw he).giving
  | prepare sql => exact (Connection.tells_prepare hS ht hw he sql).giving
  | serverVersion => exact (Connection.tells_serverVersion c).giving
  | setTimeouts t => exact (Connection.tells_setTimeouts hn t).giving
  | breakCall => exact (Connection.tells_breakCall hn).giving
  | setFailoverHandler handler => exact (Connection.tells_setFailoverHandler (hr handler rfl) handler).giving

lemma RegistryCall.within {k : RegistryCall} (hr : (∀ conn event, k ≠ .notifyFailover conn event) → S.registry)
    (env : Nat) (w : World) : StepsWithin S w (k.perform env w) := by
  cases k with
  | set key c => exact StepsWithin.setCallback (hr nofun) env key c w
  | remove key => exact StepsWithin.removeCallback (hr nofun) env key w
  | clear => exact .single (.enroll (f := fun e => { e with callbacks := ∅ }) (hr nofun) (fun _ => rfl) env)
  | notifyFailover conn event => exact StepsWithin.notifyFailover env conn event w

/-- An operation takes steps, and returns no native error but one that it has caused. -/
theorem Operation.tells {op : Operation} (hS : op.Within S w) (hw : Standing w) (hp : op.Permitted ⟨false, true⟩)
    (hu : ∀ i ∈ op.uses, i.Fine w) (ha : ¬op.Aside) : Tells S w op.perform w := by
  cases op with
  | createEnvironment params => exact (Environment.tells_create hS.wide hw params).giving
  | environment e k =>
    have hmem : Item.environment e ∈ uses (.environment e k) := by
      rcases k with _ | _ | ⟨_, _ | _⟩ <;> simp [uses]
    exact EnvironmentCall.tells hS.wide hw (hu _ hmem) fun hk => hS.registry (by rw [hk]; trivial)
  | registry env k =>
    refine (Tells.update (k.perform env) (RegistryCall.within (fun hk => hS.registry ?_) env w)).giving
    cases k with
    | notifyFailover conn event => exact absurd rfl (hk conn event)
    | _ => trivial
  | wrap => cases hp
  | connection c k =>
    exact ConnectionCall.tells hS.wide hw (hu _ List.mem_cons_self) hS.fresh
      fun handler hk => hS.registry (by rw [hk]; trivial)
  | statement s k =>
    refine StatementCall.tells hw (hu _ List.mem_cons_self) (fun id _ => hS.wide.covers id w)
      (fun id _ => hS.wide.count id) (fun hk id hid => hS.text id ?_) fun _ _ _ _ _ o _ => hS.wide.var o.var
    cases k with
    | prepare => exact hid
    | execute => exact hid
    | _ => exact hk.elim
  | resultset rs k => exact ResultsetCall.tells (fun id _ => hS.wide.node id) hw (hu _ List.mem_cons_self) k
  | item i k =>
    refine ItemCall.tells hw (fun id _ => hS.wide.covers id w)
      (fun hk => i.within_drop hS.wide fun e he => hS.registry ?_) fun e he => ?_
    · rw [hk, he]
      trivial
    · rw [he] at hp
      exact hp
  | release h => exact (Tells.update h.drop (StepsWithin.drop (Wrapper.droppable_of_wide hS.wide))).giving
  | note m => exact (Tells.note m (.refl w)).giving
  | _ => exact absurd trivial ha

end DbClient
