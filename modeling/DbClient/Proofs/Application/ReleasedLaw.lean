import DbClient.Proofs.Application.Walks
import DbClient.Proofs.Frame.Genuine

/-! The law of released objects in any application: what can still be asked of an object whose native handle is gone,
however it has gone, and of the copies that have been made of it. -/
namespace DbClient
open Act World

variable {α β σ : Type} {w : World} {h : Wrapper} {e : ClientError}

/-- An operation fails at once: it reports an error and has changed nothing, nor has it called a primitive. -/
def Act.Declines (a : Act α) (e : ClientError) (w : World) : Prop := a.run w = (.error e, w)

/-- A step of a walk fails at once. -/
def RowAct.Declines (a : RowAct σ α) (e : ClientError) (w : World) : Prop := ∀ x, a.run (x, w) = (.error e, (x, w))

namespace Act.Declines

lemma bind {a : Act α} (ha : a.Declines e w) (f : α → Act β) : (a >>= f).Declines e w := by
  rw [Declines, run_bind, ha]

lemma live (hn : h.isNull w = true) : h.live.Declines (.nullHandle (h.kind w)) w := by
  rw [Declines, Wrapper.live, run_get_bind, if_pos hn]
  rfl

/-- Most operations ask for the native handle first. -/
lemma live_bind (hn : h.isNull w = true) (f : Address → Act β) :
    (h.live >>= f).Declines (.nullHandle (h.kind w)) w := (live hn).bind f

end Act.Declines

namespace RowAct.Declines

lemma bind {a : RowAct σ α} (ha : a.Declines e w) (f : α → RowAct σ β) : (a >>= f).Declines e w := fun x => by
  rw [run_bind, ha x]

lemma ofAct {a : Act α} (ha : a.Declines e w) : (RowAct.ofAct a : RowAct σ α).Declines e w := fun x => by
  rw [run_ofAct, show a.run w = (.error e, w) from ha]

end RowAct.Declines

/-! ### What calls report -/

/-- What a call of a connection reports when the handle is gone; none when the call does without it. Of timeouts the
first that is given has to fit into a word before the handle is asked for. -/
def ConnectionCall.complaint? (kind : HandleKind) : ConnectionCall → Option ClientError
  | statement | prepare _ => some (.nullHandle .connection)
  | setTimeouts t => (t.toList.findSome? Prod.snd).map fun d =>
    if d.millis?.isSome then .nullHandle kind else .overflow
  | serverVersion | breakCall | setFailoverHandler _ => some (.nullHandle kind)

/-- The same for a statement, whose data are gone with the handle. -/
def StatementCall.complaint? (kind : HandleKind) : StatementCall → Option ClientError
  | connection | releaseResultsets => none
  | allowRebinding _ => some (.nullHandle .statement)
  | _ => some (.nullHandle kind)

/-- The same for a resultset, every call of which needs the handle. One that cannot be scrolled says so first. -/
def ResultsetCall.complaint (scrollable : Bool) (kind : HandleKind) : ResultsetCall → ClientError
  | prev => if scrollable then .nullHandle kind else .invalidState "prev" .forwardOnly
  | first => if scrollable then .nullHandle kind else .invalidState "first" .forwardOnly
  | last => if scrollable then .nullHandle kind else .invalidState "last" .forwardOnly
  | seek _ _ => if scrollable then .nullHandle kind else .invalidState "seek" .forwardOnly
  | _ => .nullHandle kind

namespace Connection
variable {c : Connection}

lemma declines_setTimeoutList (hn : c.handle.isNull w = true) {ts : List (Attr × Option Duration)} {d : Duration}
    (hts : ts.findSome? Prod.snd = some d) : (c.setTimeoutList ts).Declines
      (if d.millis?.isSome then .nullHandle (c.handle.kind w) else .overflow) w := by
  induction ts with
  | nil => cases hts
  | cons p ts ih =>
    obtain ⟨attr, _ | d'⟩ := p
    · exact ih hts
    · obtain rfl : d' = d := Option.some.inj hts
      rw [setTimeoutList_some]
      cases d'.millis? with
      | none => exact Declines.bind rfl _
      | some n => exact (Declines.live_bind hn _).bind _

end Connection

lemma ConnectionCall.declines {c : Connection} (hn : c.handle.isNull w = true) {k : ConnectionCall}
    (hk : k.complaint? (c.handle.kind w) = some e) : (k.perform c).Declines e w := by
  have hcreate : (Statement.create c).Declines (.nullHandle .connection) w := by
    rw [Declines, Statement.create, run_get_bind, if_pos hn]
    rfl
  cases k with
  | statement =>
    obtain rfl := Option.some.inj hk
    exact hcreate.bind _
  | prepare sql =>
    obtain rfl := Option.some.inj hk
    exact (hcreate.bind _).bind _
  | setTimeouts t =>
    obtain ⟨d, hd, rfl⟩ := Option.map_eq_some_iff.mp hk
    exact (Connection.declines_setTimeoutList hn hd).bind _
  | _ =>
    obtain rfl := Option.some.inj hk
    exact (Declines.live_bind hn _).bind _

lemma Statement.declines_data {s : Statement} (hn : s.handle.isNull w = true) :
    s.data.Declines (.nullHandle .statement) w := by
  have hnone : s.handle.liveNode? w = none := by simpa [Wrapper.isNull] using hn
  have hd : s.data? w = none := by simp [data?, Wrapper.extra?, hnone]
  rw [Declines, data, run_get_bind, hd]
  rfl

lemma StatementCall.declines {s : Statement} (hn : s.handle.isNull w = true) {k : StatementCall} (hm : k.Meant w)
    (hk : k.complaint? (s.handle.kind w) = some e) : (k.perform s).Declines e w := by
  cases k with
  | connection => cases hk
  | releaseResultsets => cases hk
  | allowRebinding allow =>
    obtain rfl := Option.some.inj hk
    exact ((Statement.declines_data hn).bind _).bind _
  | bind index var direction kind size =>
    obtain rfl := Option.some.inj hk
    obtain ⟨v, hv⟩ := Option.isSome_iff_exists.mp hm
    have hbind : (s.bind index var direction kind size).Declines (.nullHandle (s.handle.kind w)) w := by
      rw [Declines, Statement.bind, run_get_bind, hv]
      exact Declines.live_bind hn _
    exact hbind.bind _
  | execute sql =>
    obtain rfl := Option.some.inj hk
    exact ((Declines.live_bind hn _).bind _).bind _
  | executePrepared =>
    obtain rfl := Option.some.inj hk
    exact ((Declines.live_bind hn _).bind _).bind _
  | _ =>
    obtain rfl := Option.some.inj hk
    exact (Declines.live_bind hn _).bind _

namespace Resultset
variable {rs : Resultset}

lemma declines_scrolling (operation : String) {a : Act β}
    (ha : a.Declines (.nullHandle (rs.handle.kind w)) w) : (rs.scrolling operation >>= fun _ => a).Declines
      (if rs.scrollable then .nullHandle (rs.handle.kind w) else .invalidState operation .forwardOnly) w := by
  rw [Declines, scrolling, run_bind]
  cases rs.scrollable with
  | true => exact ha
  | false => rfl

lemma declines_fetch (hn : rs.handle.isNull w = true) (op : FetchOp) :
    (rs.fetch op).Declines (.nullHandle (rs.handle.kind w)) w := Declines.live_bind hn _

lemma declines_forEach (hn : rs.handle.isNull w = true) (callback : Resultset → RowAct σ Bool) :
    (rs.forEach callback).Declines (.nullHandle (rs.handle.kind w)) w := fun x =>
  ((RowAct.Declines.ofAct (rs.declines_fetch hn .next)).bind _).bind _ x

end Resultset

lemma ResultsetCall.declines {rs : Resultset} (hn : rs.handle.isNull w = true) (k : ResultsetCall) :
    (k.perform rs).Declines (k.complaint rs.scrollable (rs.handle.kind w)) w := by
  have hscroll : ∀ operation op, (rs.scrolling operation >>= fun _ => rs.fetch op).Declines
      (if rs.scrollable then .nullHandle (rs.handle.kind w) else .invalidState operation .forwardOnly) w :=
    fun operation op => Resultset.declines_scrolling operation (rs.declines_fetch hn op)
  cases k with
  | prev => exact (hscroll "prev" .prev).bind _
  | first => exact (hscroll "first" .first).bind _
  | last => exact (hscroll "last" .last).bind _
  | seek mode offset => exact (hscroll "seek" _).bind _
  | get index r => exact (((Declines.live_bind hn _).bind _).bind _).bind _
  | _ => exact (Declines.live_bind hn _).bind _

lemma Statement.declines_walkAll {s : Statement} (hn : s.handle.isNull w = true) (walk : Resultset → RowAct σ Nat) :
    (s.walkAll walk).Declines (.nullHandle (s.handle.kind w)) w :=
  (RowAct.Declines.ofAct (Declines.live_bind hn _)).bind _

/-- Nothing can be wrapped under a handle that is gone. -/
lemma Wrapper.declines_wrap {p : Wrapper} (hn : p.isNull w = true) {env : Nat} {native : Address} (kind : HandleKind)
    (owned : Bool) (onRelease : ReleaseAction) (hnull : native.isNull = false) (hs : w.stored? env native = none) :
    (wrap env native kind (some p) owned onRelease).Declines (.nullHandle (p.kind w)) w := by
  have hnone : p.liveNode? w = none := by simpa [isNull] using hn
  rw [Declines, wrap, if_neg (by simp [hnull]), run_bind, run_get]
  simp only [hs, Option.bind_none, hnone]
  rfl

/-! ### Copies -/

namespace Wrapper

/-- A copy that is made in time is a wrapper of the same node. -/
lemma clone_of_live (hn : h.isNull w = false) : (h.clone w).1 = h := by
  obtain ⟨id, n, hid, hl⟩ := isNull_eq_false.mp hn
  rw [clone, liveNode?_eq_some.mpr ⟨hid, hl⟩]
  exact congrArg Wrapper.mk hid.symm

/-- A copy that is made too late has no node. -/
lemma clone_of_null (hn : h.isNull w = true) : h.clone w = (⟨none⟩, w) := by
  have hnone : h.liveNode? w = none := by simpa [isNull] using hn
  rw [clone, hnone]

end Wrapper

/-- A copy of an object holds a copy of its wrapper. -/
lemma Item.wrapper_clone (i : Item) (w : World) :
    (i.clone w).1.wrapper = (i.wrapper.clone w).1 ∧ (i.clone w).2 = (i.wrapper.clone w).2 := by
  cases i <;> exact ⟨rfl, rfl⟩

/-- The kind of handle that an object stands for; a bare handle stands for any. -/
def Item.kind? : Item → Option HandleKind
  | environment _ => some .environment
  | connection _ => some .connection
  | statement _ => some .statement
  | resultset _ => some .resultset
  | handle _ => none

lemma Item.Genuine.isOf {i : Item} {kind : HandleKind} (hi : i.Genuine w) (hk : i.kind? = some kind) :
    i.wrapper.IsOf kind w := by
  cases i with
  | statement s => exact Option.some.inj hk ▸ hi.2
  | handle h => cases hk
  | _ => exact Option.some.inj hk ▸ hi

namespace Application
variable {t : Terms} {a b : Application}

/-- An object at hand has a node that there is, or none. -/
lemma Reachable.node_of_holds (h : Reachable t a) {i : Item} (hi : a.Holds i) {id : Nat}
    (hid : i.wrapper.node = some id) : ∃ n, a.world.nodes.get? id = some n := by
  obtain ⟨j, hj, hpart⟩ := hi
  have hmem : i.wrapper ∈ j.wrappers := by
    cases j with
    | statement s =>
      rcases List.mem_cons.mp hpart with rfl | hpart
      · exact List.mem_cons_of_mem _ List.mem_cons_self
      · obtain rfl := List.mem_singleton.mp hpart
        exact List.mem_cons_self
    | _ =>
      obtain rfl := List.mem_singleton.mp hpart
      exact List.mem_cons_self
  refine h.fit.sound.counted.exist id (Multiset.mem_join.mpr ⟨_, Multiset.mem_map_of_mem _ hj, ?_⟩)
  rw [← Multiset.count_pos, Item.count_points]
  exact List.countP_pos_iff.mpr ⟨_, hmem, decide_eq_true hid⟩

/-- What can be asked of objects whose native handles are gone. -/
structure ReleasedLaw (t : Terms) (a : Application) : Prop where
  /-- Each call of a connection that needs the handle fails at once. A new statement misses a connection, every other
  call a handle of the wrapper's kind, unless the first timeout that it is given does not even fit into a word. -/
  connection : ∀ (c : Connection) (k : ConnectionCall) e, c.handle.isNull a.world = true →
    k.complaint? (c.handle.kind a.world) = some e → (k.perform c).Declines e a.world
  /-- Each call of a statement that needs the handle fails at once, -/
  statement : ∀ (s : Statement) (k : StatementCall) e, s.handle.isNull a.world = true → k.Meant a.world →
    k.complaint? (s.handle.kind a.world) = some e → (k.perform s).Declines e a.world
  /-- and so does everything that looks at its data, -/
  data : ∀ (s : Statement), s.handle.isNull a.world = true → s.data.Declines (.nullHandle .statement) a.world
  /-- and a walk over its rows, before the first call of the callback. -/
  walks : ∀ {σ α : Type} (s : Statement) (callback : Resultset → RowAct σ Bool) (inner : α → RowAct σ Bool) adapter,
    s.handle.isNull a.world = true → (s.fetch callback).Declines (.nullHandle (s.handle.kind a.world)) a.world ∧
      (s.fetchAdapted inner adapter).Declines (.nullHandle (s.handle.kind a.world)) a.world
  /-- Each call of a resultset fails at once; one that only scrolls may miss the scrolling first. -/
  resultset : ∀ (rs : Resultset) (k : ResultsetCall), rs.handle.isNull a.world = true →
    (k.perform rs).Declines (k.complaint rs.scrollable (rs.handle.kind a.world)) a.world
  rows : ∀ {σ α : Type} (rs : Resultset) (callback : Resultset → RowAct σ Bool) (inner : α → RowAct σ Bool) adapter,
    rs.handle.isNull a.world = true → (rs.forEach callback).Declines (.nullHandle (rs.handle.kind a.world)) a.world ∧
      (rs.forEachAdapted inner adapter).Declines (.nullHandle (rs.handle.kind a.world)) a.world
  /-- Nothing can be kept with a handle that is gone, and nothing is found with it. -/
  extra : ∀ h : Wrapper, h.isNull a.world = true →
    (∀ x, (h.setExtra x).Declines (.nullHandle (h.kind a.world)) a.world) ∧
    (∀ ty, h.takeExtra ty a.world = (none, a.world)) ∧ (∀ p, h.findChild p a.world = (none, a.world)) ∧
      ∀ p, h.releaseChildren p a.world = (0, a.world)
  /-- Nothing can be created or wrapped under it. -/
  parent : ∀ (e : Environment) (h : Wrapper), h.isNull a.world = true →
    (∀ kind, (e.allocate kind (some h)).Declines (.nullHandle (h.kind a.world)) a.world) ∧
    (∀ params, (Connection.connect e.env h params).Declines (.nullHandle (h.kind a.world)) a.world) ∧
      ∀ native kind owned action, native.isNull = false → a.world.stored? e.env native = none →
        (Wrapper.wrap e.env native kind (some h) owned action).Declines (.nullHandle (h.kind a.world)) a.world
  /-- The kind of an object stays the same along every run, and what is gone stays gone. -/
  forever : ∀ i b, a.Holds i → Runs t a b → i.wrapper.kind b.world = i.wrapper.kind a.world ∧
    (i.wrapper.isNull a.world = true → i.wrapper.isNull b.world = true)
  /-- If the application wraps no handles itself, the kind of an object that has a node is the one it stands for. -/
  named : t.foreign = false → ∀ i, a.Holds i → i.wrapper.node ≠ none → ∀ kind, i.kind? = some kind →
    i.wrapper.kind a.world = kind
  /-- A copy that is made before the release is a wrapper of the same node, so that all this holds of it too. -/
  copied : ∀ i : Item, i.wrapper.isNull a.world = false → (i.clone a.world).1.wrapper = i.wrapper
  /-- A copy that is made after the release has no node, and what has no node counts as an environment. -/
  blank : ∀ i : Item, i.wrapper.isNull a.world = true → (i.clone a.world).2 = a.world ∧
    (i.clone a.world).1.wrapper.isNull a.world = true ∧ (i.clone a.world).1.wrapper.kind a.world = .environment

/-- The law of released objects holds whenever an application is between two operations. -/
theorem Reachable.releasedLaw (h : Reachable t a) : ReleasedLaw t a where
  connection c k e hn hk := ConnectionCall.declines hn hk
  statement s k e hn hm hk := StatementCall.declines hn hm hk
  data s hn := s.declines_data hn
  walks s callback inner adapter hn := ⟨s.declines_walkAll hn _, s.declines_walkAll hn _⟩
  resultset rs k hn := ResultsetCall.declines hn k
  rows rs callback inner adapter hn := ⟨rs.declines_forEach hn _, rs.declines_forEach hn _⟩
  extra h hn := by
    have hnone : h.liveNode? a.world = none := by simpa [Wrapper.isNull] using hn
    refine ⟨fun x => ?_, fun ty => ?_, fun p => ?_, fun p => ?_⟩
    · rw [Declines, Wrapper.setExtra, run_get_bind, hnone]
      rfl
    · rw [Wrapper.takeExtra, hnone]
    · rw [Wrapper.findChild, hnone]
    · rw [Wrapper.releaseChildren, hnone]
  parent e h hn := ⟨fun kind => Declines.live_bind hn _, fun params => Declines.live_bind hn _,
    fun native kind owned action hnull hs => h.declines_wrap hn kind owned action hnull hs⟩
  forever i b hi hr := by
    have hkeeps := Path.keepsKinds (hr.path h.fit) h.fit.sound
    cases hid : i.wrapper.node with
    | none => simp [Wrapper.kind, Wrapper.anyNode?, Wrapper.isNull, Wrapper.liveNode?, hid]
    | some id =>
      obtain ⟨n, hn⟩ := h.node_of_holds hi hid
      have hkind : a.world.kind? id = some n.kind := by rw [kind?, hn, Option.map_some]
      exact ⟨by rw [Wrapper.kind_eq hid hkind, Wrapper.kind_eq hid (hkeeps id n.kind hkind)],
        (h.carries hr).isNull hid hn⟩
  named ht i hi hnode kind hk := by
    obtain ⟨id, hid⟩ := Option.ne_none_iff_exists'.mp hnode
    exact Wrapper.kind_eq hid ((h.genuine_of_holds ht hi).isOf hk id hid)
  copied i hn := by rw [(i.wrapper_clone a.world).1, Wrapper.clone_of_live hn]
  blank i hn := by
    obtain ⟨hwrapper, hworld⟩ := i.wrapper_clone a.world
    rw [hwrapper, hworld, Wrapper.clone_of_null hn]
    exact ⟨rfl, rfl, rfl⟩

/-- A connection is copied, its environment is cleaned up, and the connection is copied once more: the connection and
its first copy are released, as are the statement and the resultset below them. -/
theorem releasedLaw_after_cleanup :
    let c : Connection := ⟨0, ⟨some 1⟩⟩
    let s : Statement := ⟨0, c, ⟨some 2⟩⟩
    let rs : Resultset := ⟨⟨some 3⟩, some "q", false⟩
    let a := play [.createEnvironment default,
      .environment ⟨0, ⟨some 0⟩⟩ (.connect (.ofPassword "db" "user" "word")), .library (.addResultset "q" [[.null]]),
      .connection c (.prepare "q"), .statement s .executePrepared, .statement s .resultset,
      .item (.connection c) .clone, .environment ⟨0, ⟨some 0⟩⟩ .cleanup, .item (.connection c) .clone] start
    ReleasedLaw ⟨false, false⟩ a ∧ (a.Holds (.connection c) ∧ a.Holds (.statement s) ∧ a.Holds (.resultset rs)) ∧
      (c.handle.isNull a.world = true ∧ s.handle.isNull a.world = true ∧ rs.handle.isNull a.world = true) ∧
      (c.breakCall.run a.world).1 = .error (.nullHandle .connection) ∧
      (s.executePrepared.run a.world).1 = .error (.nullHandle .statement) ∧
      (rs.next.run a.world).1 = .error (.nullHandle .resultset) ∧
      (rs.prev.run a.world).1 = .error (.invalidState "prev" .forwardOnly) := by
  refine ⟨Reachable.releasedLaw (runs_play ?_), by decide +kernel, by decide +kernel, by decide +kernel,
    by decide +kernel, by decide +kernel, by decide +kernel⟩
  exact ⟨trivial, by decide +kernel, trivial, by decide +kernel, trivial, by decide +kernel, trivial,
    by decide +kernel, trivial, by decide +kernel, trivial, by decide +kernel, trivial, by decide +kernel, trivial,
    by decide +kernel, trivial, by decide +kernel, trivial⟩

/-- A copy of a connection that is made after the release does not know what it was: where the connection says that
a connection is missing, its copy says that an environment is, except when it is asked for a statement. -/
theorem late_copy_is_misnamed :
    let c : Connection := ⟨0, ⟨some 1⟩⟩
    let late : Connection := ⟨0, ⟨none⟩⟩
    let a := play [.createEnvironment default,
      .environment ⟨0, ⟨some 0⟩⟩ (.connect (.ofPassword "db" "user" "word")), .environment ⟨0, ⟨some 0⟩⟩ .cleanup,
      .item (.connection c) .clone] start
    Reachable ⟨false, false⟩ a ∧ (a.Holds (.connection c) ∧ a.Holds (.connection late)) ∧
      (c.breakCall.run a.world).1 = .error (.nullHandle .connection) ∧
      (late.breakCall.run a.world).1 = .error (.nullHandle .environment) ∧
      ((Statement.create late).run a.world).1 = .error (.nullHandle .connection) := by
  refine ⟨runs_play ?_, by decide +kernel, by decide +kernel, by decide +kernel, by decide +kernel⟩
  exact ⟨trivial, by decide +kernel, trivial, by decide +kernel, trivial, by decide +kernel, trivial,
    by decide +kernel, trivial⟩

end Application
end DbClient
