import DbClient.Proofs.Application.Basic
import Mathlib.Data.Multiset.Bind

/-! Runs as paths of moves: each operation of an application leads from a sound world to a sound world, and
the wrappers that are counted are those of the objects that it holds. -/
namespace DbClient
open Act World

/-! ### What objects hold -/

/-- The nodes that an object holds, one for each of its wrappers. -/
def Item.points (i : Item) : Multiset Nat := (i.wrappers.map Wrapper.points).sum

/-- The environment of an object exists. -/
def Item.Housed (w : World) : Item → Prop
  | environment e => w.Housed e.env
  | connection c => w.Housed c.env
  | statement s => w.Housed s.env ∧ w.Housed s.conn.env
  | _ => True

/-- The nodes that objects hold. -/
def total (items : Multiset Item) : Multiset Nat := (items.map Item.points).sum

@[simp] lemma total_zero : total 0 = 0 := rfl

@[simp] lemma total_singleton (i : Item) : total {i} = i.points := by simp [total]

@[simp] lemma total_add (l m : Multiset Item) : total (l + m) = total l + total m := by simp [total]

@[simp] lemma Item.points_environment (e : Environment) : (Item.environment e).points = e.root.points := by
  simp [points, wrappers]

@[simp] lemma Item.points_connection (c : Connection) : (Item.connection c).points = c.handle.points := by
  simp [points, wrappers]

@[simp] lemma Item.points_statement (s : Statement) : (Item.statement s).points = s.points := by
  simp [points, wrappers, Statement.points]

@[simp] lemma Item.points_resultset (rs : Resultset) : (Item.resultset rs).points = rs.handle.points := by
  simp [points, wrappers]

@[simp] lemma Item.points_handle (h : Wrapper) : (Item.handle h).points = h.points := by
  simp [points, wrappers]

lemma Wrapper.count_points (h : Wrapper) (id : Nat) : h.points.count id = if h.node = some id then 1 else 0 := by
  obtain ⟨_ | i⟩ := h
  · rfl
  · simp [points, Multiset.count_singleton, eq_comm]

lemma Item.count_points (i : Item) (id : Nat) :
    i.points.count id = i.wrappers.countP fun h => h.node = some id := by
  unfold points
  induction i.wrappers with
  | nil => rfl
  | cons h rest ih => simp [ih, Wrapper.count_points, List.countP_cons, Nat.add_comm]

namespace Application
variable {t : Terms} {a b : Application}

/-- The nodes that an application holds. -/
def held (a : Application) : Multiset Nat := total a.items

lemma count_held (a : Application) (id : Nat) : a.held.count id = a.wrappersOf id := by
  simp only [held, total, wrappersOf, Multiset.count_sum, Item.count_points]

/-- The world is sound with the wrappers that the application holds, and the environments of its objects
exist. -/
structure Fit (a : Application) : Prop where
  sound : Sound a.held a.world
  housed : ∀ i ∈ a.items, i.Housed a.world

end Application

/-- A call takes objects from the application and gives it others, whose environments exist. -/
structure Act.Trades (t : Terms) (spent : Multiset Item) (a : Act (Multiset Item)) (w : World) : Prop where
  takes : ∀ rest, Takes t (total spent + rest) rest total a w
  housed : ∀ rest items w', Sound (total spent + rest) w → a.run w = (.ok items, w') →
    ∀ i ∈ items, i.Housed w'

variable {t : Terms} {hs : Multiset Nat} {w w' : World}

namespace Act.Trades
variable {α : Type} {a : Act α} {f : α → Multiset Item}

/-- A call that gives the application nothing. -/
lemma ofCourse (h : ∀ hs, Does (Course t hs) a w) :
    Trades t 0 (a >>= fun _ => pure 0) w := by
  refine ⟨fun rest => ?_, fun rest items w' _ hr => ?_⟩
  · rw [total_zero, Multiset.zero_add]
    exact Takes.bind_course (h rest) fun _ _ _ _ => Takes.pure_none 0 rfl
  · obtain ⟨_, _, -, hp⟩ := ok_of_bind hr
    obtain ⟨h1, -⟩ := Prod.mk.inj hp
    obtain rfl := Except.ok.inj h1
    exact fun i hi => absurd hi (Multiset.notMem_zero i)

lemma ofQuiet (h : Does Quiet a w) : Trades t 0 (a >>= fun _ => pure 0) w := ofCourse fun _ => Course.ofQuiet h

lemma get {spent : Multiset Item} {g : World → Act (Multiset Item)} (h : Trades t spent (g w) w) :
    Trades t spent (MonadState.get >>= g) w := ⟨h.takes, h.housed⟩

/-- A call that makes objects. -/
lemma ofTakes (h : ∀ hs, Takes t hs hs (fun x => total (f x)) a w)
    (hf : ∀ hs x w', Sound hs w → a.run w = (.ok x, w') → ∀ i ∈ f x, i.Housed w') :
    Trades t 0 (a >>= fun x => pure (f x)) w := by
  refine ⟨fun rest => ?_, fun rest items w' hw hr => ?_⟩
  · rw [total_zero, Multiset.zero_add]
    exact (h rest).bind fun x _ _ _ _ => Relation.ReflTransGen.refl
  · obtain ⟨x, _, hx, hp⟩ := ok_of_bind hr
    obtain ⟨h1, rfl⟩ := Prod.mk.inj hp
    obtain rfl := Except.ok.inj h1
    exact hf _ x _ hw hx

end Act.Trades
/-! ### Environments of new objects -/

lemma Connection.env_of_connect {env : Nat} {root : Wrapper} {params : ConnectParams} {c : Connection}
    (h : (connect env root params).run w = (.ok c, w')) : c.env = env := by
  obtain ⟨_, _, -, hcreate⟩ := ok_of_bind h
  obtain ⟨_, _, -, hadopt⟩ := ok_of_bind hcreate
  obtain ⟨_, _, -, hset⟩ := ok_of_bind hadopt
  obtain ⟨_, _, -, hnote⟩ := ok_of_bind hset
  obtain ⟨_, _, -, hget⟩ := ok_of_bind hnote
  obtain ⟨_, _, -, hend⟩ := ok_of_bind hget
  obtain ⟨h1, -⟩ := Prod.mk.inj hend
  exact congrArg Connection.env (Except.ok.inj h1).symm

lemma Statement.env_of_create {conn : Connection} {s : Statement} (h : (create conn).run w = (.ok s, w')) :
    s.env = conn.env ∧ s.conn.env = conn.env := by
  obtain ⟨_, v, hget, hguard⟩ := ok_of_bind h
  dsimp only at hguard
  split at hguard
  · cases hguard
  · obtain ⟨_, _, -, hcreate⟩ := ok_of_bind hguard
    obtain ⟨_, _, -, hadopt⟩ := ok_of_bind hcreate
    obtain ⟨_, _, -, hset⟩ := ok_of_bind hadopt
    obtain ⟨_, _, -, hnote⟩ := ok_of_bind hset
    obtain ⟨_, u, hclone, hend⟩ := ok_of_bind hnote
    obtain ⟨h1, -⟩ := Prod.mk.inj hclone
    obtain rfl := Except.ok.inj h1
    obtain ⟨h2, -⟩ := Prod.mk.inj hend
    obtain rfl := Except.ok.inj h2
    exact ⟨rfl, rfl⟩

lemma Statement.env_of_prepare {conn : Connection} {sql : String} {s : Statement}
    (h : (conn.prepare sql).run w = (.ok s, w')) : s.env = conn.env ∧ s.conn.env = conn.env := by
  obtain ⟨s', _, hcreate, hprepare⟩ := ok_of_bind h
  obtain ⟨_, _, -, hend⟩ := ok_of_bind hprepare
  obtain ⟨h1, -⟩ := Prod.mk.inj hend
  obtain rfl := Except.ok.inj h1
  exact env_of_create hcreate

lemma Act.Takes.housed {α : Type} {held rest : Multiset Nat} {out : α → Multiset Nat} {a : Act α}
    {r : Except ClientError α} {env : Nat} (h : Takes t held rest out a w) (hw : Sound held w)
    (hr : a.run w = (r, w')) (he : w.Housed env) : w'.Housed env := by
  have hp := h hw
  rw [hr] at hp
  exact Path.housed hp hw he

/-! ### Calls -/

lemma EnvironmentCall.trades {e : Environment} (he : w.Housed e.env) (c : EnvironmentCall) :
    Trades t (Operation.spends (.environment e c)) (c.perform e) w := by
  cases c with
  | cleanup =>
    have htakes : ∀ rest, Takes t (total {.environment e} + rest) rest total (perform e cleanup) w := by
      intro rest _
      have hp : Path t (e.root.points + rest, w) ((e.cleanup w).1.root.points + rest, (e.cleanup w).2) :=
        e.path_cleanup w
      change Path t (total {.environment e} + rest, w)
        (total {.environment (e.cleanup w).1} + rest, (e.cleanup w).2)
      simpa using hp
    refine ⟨htakes, fun rest items w' hw hr i hi => ?_⟩
    have hkept := (htakes rest).housed hw hr he
    obtain ⟨h1, rfl⟩ := Prod.mk.inj hr
    obtain rfl := Except.ok.inj h1
    obtain rfl := Multiset.mem_singleton.mp hi
    have henv : (e.cleanup w).1.env = e.env := by
      unfold Environment.cleanup
      split <;> rfl
    change World.Housed (e.cleanup w).2 (e.cleanup w).1.env
    rw [henv]
    exact hkept
  | connect params =>
    have htakes : ∀ hs, Takes t hs hs (fun c => total {.connection c}) (e.connect params) w := fun hs => by
      simpa [Environment.connect] using Connection.takes_connect e.env e.root params he
    refine Trades.ofTakes htakes fun hs c w' hw hr i hi => ?_
    obtain rfl := Multiset.mem_singleton.mp hi
    change World.Housed w' c.env
    rw [Connection.env_of_connect hr]
    exact (htakes hs).housed hw hr he
  | allocate kind parent =>
    refine Trades.ofTakes (fun hs => ?_) fun _ _ _ _ _ i hi => ?_
    · simpa using e.takes_allocate kind (parent.map Item.wrapper) he
    · obtain rfl := Multiset.mem_singleton.mp hi
      trivial

lemma ConnectionCall.trades {c : Connection} (he : w.Housed c.env) (k : ConnectionCall) :
    Trades t 0 (k.perform c) w := by
  have hnew : ∀ {a : Act Statement}, (∀ hs, Takes t hs hs Statement.points a w) →
      (∀ s w', a.run w = (.ok s, w') → s.env = c.env ∧ s.conn.env = c.env) →
      Trades t 0 (a >>= fun s => pure {.statement s}) w := by
    intro a htakes henv
    refine Trades.ofTakes (fun hs => by simpa using htakes hs) fun hs s w' hw hr i hi => ?_
    obtain rfl := Multiset.mem_singleton.mp hi
    have hkept := (htakes hs).housed hw hr he
    obtain ⟨h1, h2⟩ := henv s w' hr
    exact ⟨h1.symm ▸ hkept, h2.symm ▸ hkept⟩
  cases k with
  | statement => exact hnew (fun _ => Statement.takes_create c he) fun _ _ => Statement.env_of_create
  | prepare sql => exact hnew (fun _ => c.takes_prepare sql he) fun _ _ => Statement.env_of_prepare
  | serverVersion => exact Trades.ofQuiet c.quiet_serverVersion
  | setTimeouts ts => exact Trades.ofQuiet (c.quiet_setTimeouts ts)
  | breakCall => exact Trades.ofQuiet c.quiet_breakCall
  | setFailoverHandler handler => exact Trades.ofQuiet (c.quiet_setFailoverHandler handler)

lemma StatementCall.trades {s : Statement} (he : w.Housed s.env) (hc : w.Housed s.conn.env) (k : StatementCall) :
    Trades t 0 (k.perform s) w := by
  have hrs : ∀ {a : Act (Option Resultset)},
      (∀ hs, Takes t hs hs (fun r => r.elim 0 fun rs => rs.handle.points) a w) →
      Trades t 0 (a >>= fun rs => pure (resultsetItems rs)) w := by
    intro a htakes
    have htotal : (fun r => total (resultsetItems r)) = fun r => r.elim 0 fun rs => rs.handle.points := by
      funext r
      cases r <;> simp [resultsetItems]
    refine Trades.ofTakes (fun hs => by rw [htotal]; exact htakes hs) fun _ r _ _ _ i hi => ?_
    cases r with
    | none => exact absurd hi (Multiset.notMem_zero i)
    | some rs =>
      obtain rfl := Multiset.mem_singleton.mp hi
      trivial
  cases k with
  | connection =>
    have htakes : ∀ hs, Takes t hs hs (fun c => total {.connection c}) (modifyGet s.conn.clone) w := by
      intro hs _
      change Path t (hs, w) (total {.connection (s.conn.clone w).1} + hs, (s.conn.clone w).2)
      rw [total_singleton, Item.points_connection]
      exact s.conn.handle.path_clone w
    refine Trades.ofTakes htakes fun hs c w' hw hr i hi => ?_
    obtain rfl := Multiset.mem_singleton.mp hi
    have hkept := (htakes hs).housed hw hr hc
    obtain ⟨h1, rfl⟩ := Prod.mk.inj hr
    obtain rfl := Except.ok.inj h1
    exact hkept
  | prepare mode sql => exact Trades.ofCourse fun _ => s.course_prepare mode sql
  | execute sql => exact Trades.ofCourse fun _ => s.course_execute sql
  | executePrepared => exact Trades.ofCourse fun _ => s.course_executePrepared
  | bind index var direction kind size =>
    exact Trades.ofCourse fun _ => s.course_bind index var direction kind size
  | register name ty maxLength => exact Trades.ofQuiet (s.quiet_register name ty maxLength)
  | setArraySize size => exact Trades.ofCourse fun _ => s.course_setArraySize size
  | allowRebinding allow => exact Trades.ofCourse fun _ => s.course_allowRebinding allow
  | setFetchMode mode => exact Trades.ofCourse fun _ => s.course_setFetchMode mode
  | affectedRows => exact Trades.ofQuiet s.quiet_affectedRows
  | resultset => exact hrs fun _ => s.takes_resultset he
  | nextResultset => exact hrs fun _ => s.takes_nextResultset he
  | releaseResultsets => exact Trades.ofCourse fun _ => s.course_releaseResultsets

lemma ResultsetCall.trades (rs : Resultset) (k : ResultsetCall) : Trades t 0 (k.perform rs) w := by
  cases k with
  | next => exact Trades.ofQuiet rs.quiet_next
  | prev => exact Trades.ofQuiet rs.quiet_prev
  | first => exact Trades.ofQuiet rs.quiet_first
  | last => exact Trades.ofQuiet rs.quiet_last
  | seek mode offset => exact Trades.ofQuiet (rs.quiet_seek mode offset)
  | currentRow => exact Trades.ofQuiet rs.quiet_currentRow
  | columnCount => exact Trades.ofQuiet rs.quiet_columnCount
  | get index r => exact Trades.ofQuiet (rs.quiet_get index r)

namespace Item

/-- To drop an object is to drop its wrappers. -/
lemma path_drop (i : Item) (w : World) : Path t (i.points + hs, w) (hs, i.drop w) := by
  cases i with
  | environment e => exact (points_environment e).symm ▸ e.path_drop w
  | connection c => exact (points_connection c).symm ▸ c.handle.path_drop w
  | statement s => exact (points_statement s).symm ▸ s.path_drop w
  | resultset rs => exact (points_resultset rs).symm ▸ rs.handle.path_drop w
  | handle h => exact (points_handle h).symm ▸ h.path_drop w

lemma path_clone (i : Item) (w : World) : Path t (hs, w) ((i.clone w).1.points + hs, (i.clone w).2) := by
  cases i with
  | connection c => exact (Item.points_connection _).symm ▸ c.handle.path_clone w
  | _ => exact (Item.points_handle _).symm ▸ Wrapper.path_clone _ w

lemma housed_clone {i : Item} (hi : i.Housed w) (hw' : ∀ env, w.Housed env → w'.Housed env) :
    (i.clone w).1.Housed w' := by
  cases i with
  | connection c => exact hw' _ hi
  | _ => trivial

end Item

lemma ItemCall.trades {i : Item} (hi : i.Housed w) (k : ItemCall)
    (hk : Operation.Permitted t (.item i k)) : Trades t (Operation.spends (.item i k)) (k.perform i) w := by
  cases k with
  | clone =>
    have htakes : ∀ hs, Takes t hs hs (fun j => total {j}) (modifyGet i.clone) w := by
      intro hs _
      change Path t (hs, w) (total {(i.clone w).1} + hs, (i.clone w).2)
      rw [total_singleton]
      exact i.path_clone w
    refine Trades.ofTakes htakes fun hs j w' hw hr k hk => ?_
    obtain rfl := Multiset.mem_singleton.mp hk
    have hkept : ∀ env, w.Housed env → w'.Housed env := fun _ => (htakes hs).housed hw hr
    obtain ⟨h1, rfl⟩ := Prod.mk.inj hr
    obtain rfl := Except.ok.inj h1
    exact Item.housed_clone hi hkept
  | drop =>
    refine ⟨fun rest _ => ?_, fun rest items w' _ hr j hj => ?_⟩
    · change Path t (total {i} + rest, w) (0 + rest, i.drop w)
      rw [total_singleton, Multiset.zero_add]
      exact i.path_drop w
    · obtain ⟨h1, -⟩ := Prod.mk.inj hr
      obtain rfl := Except.ok.inj h1
      exact absurd hj (Multiset.notMem_zero j)
  | setExtra e =>
    exact Trades.ofCourse fun _ => i.wrapper.course_setExtra e fun _ _ d _ _ hd => absurd hd (hk d)
  | takeExtra ty => exact Trades.ofCourse fun _ => i.wrapper.course_takeExtra ty w
  | findChild p =>
    refine Trades.ofTakes (fun hs hw => ?_) fun _ r _ _ _ j hj => ?_
    · have hp : Path t (hs, w) (((i.wrapper.findChild p w).1.elim 0 Wrapper.points) + hs,
          (i.wrapper.findChild p w).2) := i.wrapper.path_findChild p hw
      change Path t (hs, w) (total (Option.elim (i.wrapper.findChild p w).1 0 fun h => {.handle h}) + hs,
        (i.wrapper.findChild p w).2)
      cases hf : (i.wrapper.findChild p w).1 with
      | none => simpa [hf] using hp
      | some h => simpa [hf] using hp
    · cases r with
      | none => exact absurd hj (Multiset.notMem_zero j)
      | some h =>
        obtain rfl := Multiset.mem_singleton.mp hj
        trivial
  | releaseChildren p => exact Trades.ofCourse fun _ => Course.releaseChildren i.wrapper p w

lemma LibraryCall.course (k : LibraryCall) (hk : Operation.Permitted t (.library k)) :
    Course t hs w { w with library := k.perform w.library } := by
  cases k with
  | failNext op e =>
    by_cases hop : op = .destroy
    · subst hop
      exact Course.move (.fault (hk rfl) e)
    · exact Course.quiet (Quiet.ofLibrary (.failNext hop e _))
  | foreign f => exact Course.move (.foreign hk (.of_eq rfl rfl rfl))
  | _ => exact Course.quiet (Quiet.ofLibrary (.of_eq rfl rfl rfl rfl rfl rfl rfl rfl))

/-! ### Operations -/

/-- An object at hand is housed when all held objects are. -/
lemma Application.Fit.housed_of_holds {a : Application} (ha : a.Fit) {i : Item} (hi : a.Holds i) :
    i.Housed a.world := by
  obtain ⟨j, hj, hij⟩ := hi
  have hh := ha.housed j hj
  cases j with
  | statement s =>
    rcases List.mem_cons.mp hij with rfl | hij
    · exact hh
    · obtain rfl := List.mem_singleton.mp hij
      exact hh.2
  | _ =>
    obtain rfl := List.mem_singleton.mp hij
    exact hh

/-- Each operation is a trade. -/
theorem Operation.trades {op : Operation} (hp : op.Permitted t) (hu : ∀ i ∈ op.uses, i.Housed w) :
    Trades t op.spends op.perform w := by
  cases op with
  | createEnvironment params =>
    refine Trades.ofTakes (fun hs => by simpa using Environment.takes_create params) fun hs e w' hw hr i hi => ?_
    obtain rfl := Multiset.mem_singleton.mp hi
    exact Environment.housed_create hw hr
  | environment e c =>
    refine EnvironmentCall.trades (hu (.environment e) ?_) c
    rcases c with _ | _ | ⟨_, _ | _⟩ <;> simp [uses]
  | registry env c =>
    apply Trades.ofQuiet
    cases c with
    | set key c => exact Quiet.setCallback env key c w
    | remove key => exact Quiet.removeCallback env key w
    | clear => exact Quiet.clearCallbacks env w
    | notifyFailover conn event => exact Quiet.notifyFailover env conn event w
  | wrap env native kind parent owned onRelease =>
    apply Trades.get
    split
    · exact Trades.ofQuiet (Does.pure ())
    · rename_i e he
      have hhoused : w.Housed env := by
        rw [Housed, store?, he]
        rfl
      refine Trades.ofTakes (fun hs => ?_) fun _ _ _ _ _ i hi => ?_
      · simpa using Wrapper.takes_wrap hp hhoused
      · obtain rfl := Multiset.mem_singleton.mp hi
        trivial
  | connection c k => exact ConnectionCall.trades (hu (.connection c) List.mem_cons_self) k
  | statement s k =>
    obtain ⟨he, hc⟩ := hu (.statement s) List.mem_cons_self
    exact StatementCall.trades he hc k
  | resultset rs k => exact ResultsetCall.trades rs k
  | item i k => exact ItemCall.trades (hu i List.mem_cons_self) k hp
  | release h =>
    refine ⟨fun rest _ => ?_, fun rest items w' _ hr i hi => ?_⟩
    · change Path t (total {.handle h} + rest, w) (total {.handle ⟨none⟩} + rest, h.drop w)
      rw [total_singleton, total_singleton, Item.points_handle, Item.points_handle]
      exact (Multiset.zero_add rest).symm ▸ h.path_drop w
    · obtain ⟨h1, -⟩ := Prod.mk.inj hr
      obtain rfl := Except.ok.inj h1
      obtain rfl := Multiset.mem_singleton.mp hi
      trivial
  | newVar v => exact Trades.ofQuiet (Quiet.of_eq rfl rfl rfl rfl rfl)
  | setVar id v => exact Trades.ofQuiet (Quiet.of_eq rfl rfl rfl rfl rfl)
  | library k => exact Trades.ofCourse fun _ => k.course hp
  | note n => exact Trades.ofQuiet (Quiet.note n)

namespace Application
variable {a b : Application}

lemma held_of_spends {op : Operation} (h : op.spends ≤ a.items) :
    a.held = total op.spends + total (a.items - op.spends) := by
  rw [held, ← total_add, add_tsub_cancel_of_le h]

lemma held_after {op : Operation} {r : Except ClientError (Multiset Item)}
    (hr : op.perform.run a.world = (r, w)) :
    op.after a = ⟨w, r.toOption.getD 0 + (a.items - op.spends)⟩ ∧
      (op.after a).held = gained total (total (a.items - op.spends)) r := by
  have hafter : op.after a = ⟨w, r.toOption.getD 0 + (a.items - op.spends)⟩ := by
    unfold Operation.after
    rw [hr]
  refine ⟨hafter, ?_⟩
  rw [hafter, held, total_add]
  cases r with
  | ok items => rfl
  | error e => exact Multiset.zero_add _

/-- A step of an application is a path of moves. -/
theorem Step.path (h : Step t a b) (ha : a.Fit) : Path t (a.held, a.world) (b.held, b.world) := by
  obtain ⟨op, hp, ⟨hu, hs⟩, rfl⟩ := h
  have ht := (op.trades hp fun i hi => ha.housed_of_holds (hu i hi)).takes (total (a.items - op.spends))
  have hw := ha.sound
  rw [held_of_spends hs] at hw ⊢
  have hp := ht hw
  rcases hr : op.perform.run a.world with ⟨r, w⟩
  rw [hr] at hp
  obtain ⟨hafter, hheld⟩ := held_after hr
  rw [hheld, hafter]
  exact hp

theorem Step.fit (h : Step t a b) (ha : a.Fit) : b.Fit := by
  have hp := h.path ha
  refine ⟨Path.sound hp ha.sound, ?_⟩
  obtain ⟨op, hperm, ⟨hu, hs⟩, rfl⟩ := h
  have ht := op.trades hperm fun i hi => ha.housed_of_holds (hu i hi)
  have hw := ha.sound
  rw [held_of_spends hs] at hw
  rcases hr : op.perform.run a.world with ⟨r, w⟩
  have hkept : ∀ env, a.world.Housed env → w.Housed env := fun _ => (ht.takes _).housed hw hr
  rw [(held_after hr).1]
  intro i hi
  rcases Multiset.mem_add.mp hi with hi | hi
  · cases r with
    | ok items => exact ht.housed _ _ _ hw hr i hi
    | error e => exact absurd hi (Multiset.notMem_zero i)
  · have hh := ha.housed i (Multiset.mem_of_le (Multiset.sub_le_self _ _) hi)
    cases i with
    | environment e => exact hkept _ hh
    | connection c => exact hkept _ hh
    | statement s => exact ⟨hkept _ hh.1, hkept _ hh.2⟩
    | resultset rs => trivial
    | handle h => trivial

theorem Runs.fit (h : Runs t a b) (ha : a.Fit) : b.Fit := by
  induction h with
  | refl => exact ha
  | tail _ h ih => exact h.fit ih

theorem Runs.path (h : Runs t a b) (ha : a.Fit) : Path t (a.held, a.world) (b.held, b.world) := by
  induction h with
  | refl => exact Relation.ReflTransGen.refl
  | tail hr h ih => exact Relation.ReflTransGen.trans ih (h.path (Runs.fit hr ha))

/-- The application before its first operation is fit. -/
lemma fit_start : start.Fit where
  sound := {
    forest := {
      table := Table.lawful_empty
      envs := Table.lawful_empty
      keys := by simp [start, World.fresh, store?]
      known := by simp [start, World.fresh, Live]
      stored := by simp [start, World.fresh, stored?]
      bare := by simp [start, World.fresh]
      up := by simp [start, World.fresh]
      down := by simp [start, World.fresh]
      order := by simp [start, World.fresh] }
    counted := ⟨by simp [start, World.fresh], by simp [start, held]⟩
    held := by simp [start, World.fresh, Live]
    traced := ⟨List.nodup_nil, by simp [start, World.fresh]⟩ }
  housed := by simp [start]

theorem Reachable.fit (h : Reachable t a) : a.Fit := Runs.fit h fit_start

end Application
end DbClient
