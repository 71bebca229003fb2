import DbClient.Proofs.Scope.Places
import DbClient.Proofs.Scope.Registry

/-! The law of failover handlers: a ledger is kept of the handlers that an application sets through connections, and the
registry of callbacks holds what stands there. A connection that is released loses its handler, and a cleanup takes all
handlers of the environment. -/
namespace DbClient
open Act World

/-! ### The ledger -/

/-- The handlers that are set: for each environment and native handle the node of a connection and its handler. -/
abbrev Ledger : Type := Nat → Address → Option (Nat × FailoverHandler)

namespace Ledger

/-- What is left of a ledger: the handlers of the connections that have not been released. -/
def left (book : Ledger) (w : World) : Ledger := fun env key =>
  (book env key).filter fun p => (w.nodes.get? p.1).any fun n => !n.released

lemma left_eq_some {book : Ledger} {w : World} {env : Nat} {key : Address} {p : Nat × FailoverHandler} :
    book.left w env key = some p ↔ book env key = some p ∧ ∃ n, w.Live p.1 n := by
  unfold left World.Live
  rw [Option.filter_eq_some_iff, Option.any_eq_true]
  simp only [Bool.not_eq_true']

/-- The ledger after all handlers of an environment have been struck off. -/
def without (book : Ledger) (env' : Nat) : Ledger := fun env key => if env' = env then none else book env key

lemma without_left (book : Ledger) (env' : Nat) (w : World) :
    (book.left w).without env' = (book.without env').left w := by
  funext env key
  simp only [without, left]
  split <;> rfl

/-- What is left later is left of what is left before. -/
lemma left_left {book : Ledger} {w w' : World} (hw : KeepsTrunks w w')
    (h : ∀ env key p, book env key = some p → ∃ n, w.nodes.get? p.1 = some n) :
    (book.left w).left w' = book.left w' := by
  funext env key
  refine Option.ext fun p => ?_
  rw [left_eq_some, left_eq_some, left_eq_some]
  refine ⟨fun ⟨⟨hp, _⟩, hm⟩ => ⟨hp, hm⟩, fun ⟨hp, m, hm⟩ => ?_⟩
  obtain ⟨n, hn⟩ := h env key p hp
  exact ⟨⟨hp, n, (hw.trunk p.1 n m hn hm).1⟩, m, hm⟩

end Ledger

namespace Operation

/-- An operation that uses the registry of callbacks past the connections. -/
def Registers : Operation → Prop
  | registry _ (.set ..) | registry _ (.remove _) | registry _ .clear => True
  | _ => False

/-- The ledger after an operation has set a handler or removed it, or cleaned up. -/
def entered (w : World) (book : Ledger) : Operation → Ledger
  | connection c (.setFailoverHandler handler) =>
    match c.handle.liveNode? w with
    | some (id, n) => fun env key => if c.env = env ∧ n.native = key then handler.map (Prod.mk id) else book env key
    | none => book
  | environment e .cleanup | item (.environment e) .drop => if e.root.isNull w then book else book.without e.env
  | _ => book

end Operation

namespace Application

/-- The ledger of a program without decisions. -/
def ledger : List Operation → Application → Ledger → Ledger
  | [], _, book => book
  | op :: rest, a, book => ledger rest (op.after a) ((op.entered a.world book).left (op.after a).world)

end Application

/-! ### The registry follows the ledger -/

variable {w w' : World} {book : Ledger} {id : Nat} {n : Node}

/-- The registry holds what the ledger says, and the connections there have not been released. -/
structure World.Follows (w : World) (book : Ledger) : Prop where
  entries : ∀ env key, w.enrolled? env key = (book env key).map fun p => .failover p.2
  conns : ∀ env key p, book env key = some p → ∃ n, w.Live p.1 n ∧ n.kind = .connection ∧
    n.onRelease = .unregisterCallbacks ∧ n.env = env ∧ n.native = key

namespace World.Follows

/-- Nothing is missing from a ledger that is followed. -/
lemma left_eq (h : w.Follows book) : book.left w = book := by
  funext env key
  refine Option.ext fun p => Ledger.left_eq_some.trans (and_iff_left_of_imp fun hp => ?_)
  obtain ⟨n, hl, -⟩ := h.conns env key p hp
  exact ⟨n, hl⟩

/-- The registry follows the ledger through all that prunes it. -/
lemma prunes (h : w.Follows book) (hw : Prunes w w') : w'.Follows (book.left w') where
  entries env key := by
    cases hb : book env key with
    | none =>
      have hnone : w.enrolled? env key = none := by rw [h.entries, hb]; rfl
      have hgone : w'.enrolled? env key = none := Option.eq_none_iff_forall_not_mem.mpr fun c hc =>
        absurd (hnone.symm.trans (hw.old env key c hc)) nofun
      rw [hgone, Ledger.left, hb]
      rfl
    | some p =>
      obtain ⟨n, hl, -, hr, rfl, rfl⟩ := h.conns env key p hb
      by_cases hlive : ∃ m, w'.Live p.1 m
      · obtain ⟨m, hm⟩ := hlive
        rw [hw.stays p.1 n m hl hm hr, h.entries, hb, Ledger.left_eq_some.mpr ⟨hb, m, hm⟩]
      · have hstruck : book.left w' n.env n.native = none := Option.eq_none_iff_forall_not_mem.mpr fun q hq => by
          obtain ⟨hq, hm⟩ := Ledger.left_eq_some.mp hq
          obtain rfl := Option.some.inj (hb.symm.trans hq)
          exact hlive hm
        rw [hw.goes p.1 n hl (fun m hm => hlive ⟨m, hm⟩) hr, hstruck]
        rfl
  conns env key p hp := by
    obtain ⟨hb, m, hm⟩ := Ledger.left_eq_some.mp hp
    obtain ⟨n, hl, hk, hr, he, hn⟩ := h.conns env key p hb
    obtain ⟨hnative, hkind, -, -, -, haction, henv⟩ := Node.of_trunk (hw.keepsTrunks.trunk p.1 n m hl.1 hm).2
    exact ⟨m, hm, hkind.trans hk, haction.trans hr, henv.trans he, hnative.trans hn⟩

/-- A connection sets its handler or removes it. -/
lemma set {c : Connection} (h : w.Follows book) (hw : Standing w) (hc : c.Placed w)
    (hk : n.kind = .connection) (hid : c.handle.node = some id) (hl : w.Live id n) (handler : Option FailoverHandler) :
    (w.setCallback c.env n.native (handler.map .failover)).Follows fun env key =>
      if c.env = env ∧ n.native = key then handler.map (Prod.mk id) else book env key := by
  obtain ⟨henv, haction, -⟩ := hc.live hid hl
  have hexists : (w.envs.get? c.env).isSome := by
    obtain ⟨e, he, -⟩ := Option.bind_eq_some_iff.mp (hw.forest.known id n hl)
    rw [← henv, he]
    rfl
  have hnodes : (w.setCallback c.env n.native (handler.map .failover)).nodes = w.nodes :=
    (Quiet.setCallback _ _ _ _).nodes
  refine ⟨fun env key => ?_, fun env key p hp => ?_⟩
  · rw [enrolled?_setCallback (hw.owns.not_null hl) _ _ hexists]
    split
    · cases handler <;> rfl
    · exact h.entries env key
  · split at hp
    · rename_i hkey
      obtain ⟨handler, -, rfl⟩ := Option.map_eq_some_iff.mp hp
      exact ⟨n, by rw [World.Live, hnodes]; exact hl, hk, haction, henv.trans hkey.1, hkey.2⟩
    · obtain ⟨m, hm, hrest⟩ := h.conns env key p hp
      exact ⟨m, by rw [World.Live, hnodes]; exact hm, hrest⟩

/-- All handlers of an environment are struck off. -/
lemma clear (h : w.Follows book) (env' : Nat) (nodes : w'.nodes = w.nodes)
    (entries : ∀ env key, w'.enrolled? env key = if env' = env then none else w.enrolled? env key) :
    w'.Follows (book.without env') where
  entries env key := by
    rw [entries, Ledger.without]
    split
    · rfl
    · exact h.entries env key
  conns env key p hp := by
    unfold Ledger.without at hp
    split at hp
    · cases hp
    · obtain ⟨n, hl, hrest⟩ := h.conns env key p hp
      exact ⟨n, by rw [World.Live, nodes]; exact hl, hrest⟩

end World.Follows

/-- The scope of an operation that leaves the registry alone. -/
def Scope.unregistered : Scope := { Scope.all with registry := False }

lemma Scope.wide_unregistered : unregistered.Wide := ⟨fun _ => trivial, fun _ => trivial, trivial⟩

namespace Environment
variable {e : Environment}

/-- A cleanup strikes the handlers of its environment off, and those that go with the connections. -/
lemma follows_cleanup (hw : Standing w) (h : w.Follows book) :
    (e.cleanup w).2.Follows ((if e.root.isNull w then book else book.without e.env).left (e.cleanup w).2) := by
  unfold cleanup
  by_cases hnull : e.root.isNull w = true
  · rw [if_pos hnull, if_pos hnull, h.left_eq]
    exact h
  · rw [if_neg hnull, if_neg hnull]
    have hdrop : StepsWithin .unregistered w (e.root.drop w) :=
      StepsWithin.drop (Wrapper.droppable_of_wide Scope.wide_unregistered)
    have hleft := h.prunes (hdrop.prunes not_false hw)
    have hclear : World.Follows ((((e.root.drop w).clearCallbacks e.env).modifyEnv e.env fun s =>
        { s with sync := .unguarded }).note (.cleanedUp (e.root.native w)))
          ((book.left (e.root.drop w)).without e.env) :=
      hleft.clear e.env rfl fun env key =>
        (enrolled?_modifyEnv (f := fun s => { s with sync := .unguarded }) (fun _ => rfl) e.env env key
          ((e.root.drop w).clearCallbacks e.env)).trans (enrolled?_clearCallbacks e.env env key (e.root.drop w))
    rw [Ledger.without_left] at hclear
    exact hclear

/-- An environment that is dropped is cleaned up. -/
lemma follows_drop (hw : Standing w) (h : w.Follows book) :
    (e.drop w).Follows ((if e.root.isNull w then book else book.without e.env).left (e.drop w)) := by
  have hcleaned : StepsWithin .all w (e.cleanup w).2 :=
    within_cleanup trivial (Wrapper.droppable_of_wide Scope.wide_all)
  have hstands := hw.within hcleaned
  have hdrop : StepsWithin .unregistered (e.cleanup w).2 (e.drop w) :=
    StepsWithin.drop (h := (e.cleanup w).1.root) (Wrapper.droppable_of_wide Scope.wide_unregistered)
  have hleft := (follows_cleanup hw h).prunes (hdrop.prunes not_false hstands)
  rwa [Ledger.left_left (hdrop.keepsTrunks hstands)] at hleft
  intro env key p hp
  have hbook : book env key = some p := by
    split at hp
    · exact hp
    · unfold Ledger.without at hp
      split at hp
      · cases hp
      · exact hp
  obtain ⟨n, hl, -⟩ := h.conns env key p hbook
  exact (hcleaned.keepsTrunks hw).there p.1 n hl.1

end Environment

/-! ### Runs -/

lemma Operation.entered_of_not_enrolls {op : Operation} (h : ¬op.Enrolls) : op.entered w book = book := by
  unfold entered
  split
  · exact absurd trivial h
  · exact absurd trivial h
  · exact absurd trivial h
  · rfl

namespace Application
variable {a : Application} {op : Operation} {ops : List Operation}

/-- An operation that leaves the registry alone prunes it. -/
lemma Reachable.prunes (h : Reachable ⟨false, true⟩ a) (hp : op.Permitted ⟨false, true⟩) (hr : a.Ready op)
    (hn : ¬op.Enrolls) : Prunes a.world (op.after a).world := by
  by_cases ha : op.Aside
  · cases op with
    | newVar | setVar | library => exact .of_nodes rfl fun _ _ => rfl
    | _ => exact ha.elim
  · have htells := h.tells hp hr ⟨Scope.wide_unregistered, fun _ _ => trivial, fun _ _ => trivial, hn⟩ ha
    exact htells.within.prunes not_false h.standing

/-- A connection sets its handler, unless it has been released. -/
lemma Reachable.ledger_set {c : Connection} (h : Reachable ⟨false, true⟩ a) (hc : a.Holds (.connection c))
    (hb : a.world.Follows book) (handler : Option FailoverHandler) :
    let op : Operation := .connection c (.setFailoverHandler handler)
    (op.after a).world.Follows ((op.entered a.world book).left (op.after a).world) := by
  intro op
  have hafter : (op.after a).world = ((c.setFailoverHandler handler).run a.world).2 := world_after (f := fun _ => 0) rfl
  unfold Operation.entered
  dsimp only [op]
  cases hn : c.handle.liveNode? a.world with
  | none =>
    have hsame : (op.after a).world = a.world := by
      suffices Ends (c.setFailoverHandler handler) a.world fun _ w => w = a.world from hafter.trans this
      refine Ends.live (fun id n hid hl => ?_) fun _ => rfl
      exact absurd (hn.symm.trans (Wrapper.liveNode?_eq_some.mpr ⟨hid, hl⟩)) nofun
    rw [hsame, hb.left_eq]
    exact hb
  | some p =>
    obtain ⟨id, n⟩ := p
    obtain ⟨hid, hl⟩ := Wrapper.liveNode?_eq_some.mp hn
    have hset : (op.after a).world = a.world.setCallback c.env n.native (handler.map .failover) := by
      suffices Ends (c.setFailoverHandler handler) a.world fun _ w =>
        w = a.world.setCallback c.env n.native (handler.map .failover) from hafter.trans this
      exact Ends.liveOf hid hl rfl
    have hkind : n.kind = .connection := by
      have hgenuine : (a.world.nodes.get? id).map Node.kind = some .connection := h.genuine_of_holds rfl hc id hid
      rw [hl.1] at hgenuine
      exact Option.some.inj hgenuine
    have hfollows := hb.set h.standing (h.placed_of_holds hc) hkind hid hl handler
    rw [hset, hfollows.left_eq]
    exact hfollows

/-- With each operation the registry follows the ledger. -/
theorem Reachable.ledger_after (h : Reachable ⟨false, true⟩ a) (hp : op.Permitted ⟨false, true⟩) (hr : a.Ready op)
    (hn : ¬op.Registers) (hb : a.world.Follows book) :
    (op.after a).world.Follows ((op.entered a.world book).left (op.after a).world) := by
  by_cases hen : op.Enrolls
  · cases op with
    | connection c k =>
      cases k with
      | setFailoverHandler handler =>
        exact h.ledger_set (hr.1 _ List.mem_cons_self) hb handler
      | _ => exact hen.elim
    | environment e k =>
      cases k with
      | cleanup => exact Environment.follows_cleanup h.standing hb
      | _ => exact hen.elim
    | item i k =>
      cases i with
      | environment e =>
        cases k with
        | drop => exact Environment.follows_drop h.standing hb
        | _ => exact hen.elim
      | _ => exact hen.elim
    | registry env k =>
      cases k with
      | notifyFailover => exact hen.elim
      | _ => exact absurd trivial hn
    | _ => exact hen.elim
  · rw [op.entered_of_not_enrolls hen]
    exact hb.prunes (h.prunes hp hr hen)

/-- Whatever an application does, the registry follows the ledger. -/
theorem Reachable.ledger_play (h : Reachable ⟨false, true⟩ a) (hl : Legal ⟨false, true⟩ ops a)
    (hn : ∀ op ∈ ops, ¬op.Registers) (hb : a.world.Follows book) :
    (play ops a).world.Follows (ledger ops a book) := by
  induction ops generalizing a book with
  | nil => exact hb
  | cons op rest ih =>
    obtain ⟨hp, hr, hrest⟩ := hl
    exact ih (h.next hp hr) hrest (fun o ho => hn o (List.mem_cons_of_mem op ho))
      (h.ledger_after hp hr (hn op List.mem_cons_self) hb)

/-- Failover handlers are those of the ledger. -/
structure FailoverLaw (a : Application) (book : Ledger) : Prop where
  /-- Each key of a registry is the native handle of a connection of its environment that has not been released, -/
  keys : ∀ env e key c, a.world.envs.get? env = some e → e.callbacks.get? key = some c → ∃ id n, a.world.Live id n ∧
    n.kind = .connection ∧ n.env = env ∧ n.native = key
  /-- and so are the native handles in the ledger. -/
  listed : ∀ env key id handler, book env key = some (id, handler) → ∃ n, a.world.Live id n ∧ n.kind = .connection ∧
    n.env = env ∧ n.native = key
  /-- The handler in the ledger is asked, and no other. Where there is none, nothing is called and all is well. -/
  notified : ∀ env key event, a.world.notifyFailover env key event = match book env key with
    | some (_, handler) => (handler.reply event, a.world.record (.failover event))
    | none => (.ok, a.world)

/-- The law of failover handlers holds after any operations, as long as the registry is used through connections and
environments only. -/
theorem failoverLaw (hl : Legal ⟨false, true⟩ ops start) (hn : ∀ op ∈ ops, ¬op.Registers) :
    FailoverLaw (play ops start) (ledger ops start fun _ _ => none) := by
  have hreach : Reachable ⟨false, true⟩ (play ops start) := runs_play hl
  have hfollows := Reachable.ledger_play Relation.ReflTransGen.refl hl hn
    (⟨fun _ _ => rfl, nofun⟩ : start.world.Follows fun _ _ => none)
  refine ⟨fun env e key c he hc => ?_, fun env key id handler hb => ?_, fun env key event => ?_⟩
  · have hentry : (play ops start).world.enrolled? env key = some c := by
      rw [enrolled?, he]
      exact hc
    obtain ⟨p, hp, -⟩ := Option.map_eq_some_iff.mp ((hfollows.entries env key).symm.trans hentry)
    obtain ⟨n, hlive, hk, -, hrest⟩ := hfollows.conns env key p hp
    exact ⟨p.1, n, hlive, hk, hrest⟩
  · obtain ⟨n, hlive, hk, -, hrest⟩ := hfollows.conns env key _ hb
    exact ⟨n, hlive, hk, hrest⟩
  · unfold World.notifyFailover
    rw [callback?_eq, hfollows.entries]
    cases hb : ledger ops start (fun _ _ => none) env key with
    | none => cases key.isNull <;> rfl
    | some p =>
      obtain ⟨n, hlive, -, -, -, rfl⟩ := hfollows.conns env key p hb
      rw [hreach.standing.owns.not_null hlive]
      rfl

/-- A handler is set through a copy of a connection and replaced through the connection; it stays while the copy is
there, and goes with it. -/
theorem failoverLaw_after_release :
    let c : Connection := ⟨0, ⟨some 1⟩⟩
    let once : FailoverHandler := ⟨[(.error, .retry)]⟩
    let twice : FailoverHandler := ⟨[(.abort, .retry)]⟩
    let ops : List Operation := [.createEnvironment default,
      .environment ⟨0, ⟨some 0⟩⟩ (.connect (.ofPassword "db" "user" "word")), .item (.connection c) .clone,
      .connection c (.setFailoverHandler (some once)), .connection c (.setFailoverHandler (some twice)),
      .item (.connection c) .drop]
    FailoverLaw (play ops start) (ledger ops start fun _ _ => none) ∧
      ledger ops start (fun _ _ => none) 0 ⟨0x1020⟩ = some (1, twice) ∧
      ((play ops start).world.notifyFailover 0 ⟨0x1020⟩ .abort).1 = .retry ∧
      ((play ops start).world.notifyFailover 0 ⟨0x1020⟩ .error).1 = .ok ∧
      ledger (ops ++ [.item (.connection c) .drop]) start (fun _ _ => none) 0 ⟨0x1020⟩ = none ∧
      (play (ops ++ [.item (.connection c) .drop]) start).world.callbackCount 0 = 0 := by
  intro c once twice ops
  exact ⟨failoverLaw ⟨trivial, by decide +kernel, trivial, by decide +kernel, trivial, by decide +kernel, trivial,
    by decide +kernel, trivial, by decide +kernel, trivial, by decide +kernel, trivial⟩
    (by simp [ops, Operation.Registers]),
    by decide +kernel, by decide +kernel, by decide +kernel, by decide +kernel, by decide +kernel⟩

end Application
end DbClient
