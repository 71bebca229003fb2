import DbClient.Proofs.Alike.World
import DbClient.Proofs.Moves.Basic

/-! Operations that do not see data. In worlds that differ in data only they have the same result, an error included,
and leave worlds that differ in data only. All operations of the client are of this kind but those that bind a variable
or execute a statement. -/
namespace DbClient

namespace Act
variable {α β : Type} {w w' : World}

/-- Two operations, each in its world, agree: they have the same result, and leave worlds that differ in data only. -/
def Agree (a a' : Act α) (w w' : World) : Prop := (a'.run w').1 = (a.run w).1 ∧ (a.run w).2.Alike (a'.run w').2

/-- An operation does not see data. -/
def Blind (a : Act α) : Prop := ∀ ⦃w w'⦄, w.Alike w' → Agree a a w w'

namespace Agree
variable {a a' : Act α}

lemma pure (h : w.Alike w') (x : α) : Agree (Pure.pure x) (Pure.pure x) w w' := ⟨rfl, h⟩

lemma throw (h : w.Alike w') (e : ClientError) :
    Agree (MonadExcept.throw e : Act α) (MonadExcept.throw e) w w' := ⟨rfl, h⟩

/-- The rule for steps in a row. -/
theorem bind {f f' : α → Act β} (ha : Agree a a' w w')
    (hf : ∀ x v v', a.run w = (.ok x, v) → v.Alike v' → Agree (f x) (f' x) v v') :
    Agree (a >>= f) (a' >>= f') w w' := by
  obtain ⟨h1, h2⟩ := ha
  unfold Agree
  rw [run_bind, run_bind]
  rcases hr : a.run w with ⟨e | x, v⟩ <;> rcases hr' : a'.run w' with ⟨e' | x', v'⟩ <;> rw [hr, hr'] at h1 h2
  · exact ⟨congrArg Except.error (Except.error.inj h1), h2⟩
  · cases h1
  · cases h1
  · obtain rfl := Except.ok.inj h1
    exact hf x' v v' hr h2

lemma get {f f' : World → Act β} (h : Agree (f w) (f' w') w w') :
    Agree (MonadState.get >>= f) (MonadState.get >>= f') w w' := h

lemma throw_bind (h : w.Alike w') (e : ClientError) (f f' : α → Act β) :
    Agree ((MonadExcept.throw e : Act α) >>= f) ((MonadExcept.throw e : Act α) >>= f') w w' := ⟨rfl, h⟩

end Agree

namespace Blind
variable {a : Act α}

lemma pure (x : α) : Blind (Pure.pure x : Act α) := fun _ _ h => .pure h x

lemma throw (e : ClientError) : Blind (MonadExcept.throw e : Act α) := fun _ _ h => .throw h e

lemma bind {f : α → Act β} (ha : Blind a) (hf : ∀ x, Blind (f x)) : Blind (a >>= f) :=
  fun _ _ h => (ha h).bind fun x _ _ _ hv => hf x hv

lemma throw_bind (e : ClientError) (f : α → Act β) : Blind ((MonadExcept.throw e : Act α) >>= f) :=
  fun _ _ h => .throw_bind h e f f

lemma tryCatch {f : ClientError → Act α} (ha : Blind a) (hf : ∀ e, Blind (f e)) :
    Blind (MonadExcept.tryCatch a f) := by
  intro w w' h
  obtain ⟨h1, h2⟩ := ha h
  unfold Agree
  rw [run_tryCatch, run_tryCatch]
  rcases hr : a.run w with ⟨e | x, v⟩ <;> rcases hr' : a.run w' with ⟨e' | x', v'⟩ <;> rw [hr, hr'] at h1 h2
  · obtain rfl := Except.error.inj h1
    exact hf e' h2
  · cases h1
  · cases h1
  · exact ⟨h1, h2⟩

lemma modifyGet {f : World → α × World} (hf : World.Blind f) : Blind (modifyGet f : Act α) := fun w w' h => by
  obtain ⟨h1, h2⟩ := hf h
  exact ⟨congrArg Except.ok h1, h2⟩

lemma update {f : World → World} (hf : ∀ w w', w.Alike w' → (f w).Alike (f w')) : Blind (Act.update f) :=
  fun w w' h => ⟨rfl, hf w w' h⟩

lemma note (n : Notice) : Blind (Act.note n) := update fun _ _ h => h.note n n

lemma native {f : Library → α × Library} (hf : Library.Blind f) : Blind (Act.native f) := fun w w' h => by
  obtain ⟨h1, h2⟩ := hf h.library
  exact ⟨congrArg Except.ok h1, h.ofLibrary h2⟩

lemma orFail (dress : ClientError → ClientError) (x : Option α) : Blind (Act.orFail dress x) := by
  cases x with
  | some x => exact pure x
  | none => exact (native Library.blind_lastError).bind fun _ => throw _

lemma require {dress : ClientError → ClientError} {f : Library → Option α × Library} (hf : Library.Blind f) :
    Blind (Act.require dress f) := (native hf).bind fun x => orFail dress x

lemma optional {dress : ClientError → ClientError} {f : Library → Option α × Library} (hf : Library.Blind f) :
    Blind (Act.optional dress f) := by
  refine (native hf).bind fun x => ?_
  cases x with
  | some x => exact pure _
  | none =>
    refine (native Library.blind_takeError).bind fun e => ?_
    cases e with
    | some e => exact throw _
    | none => exact pure _

lemma undoing {sweep : World → World} (hs : ∀ w w', w.Alike w' → (sweep w).Alike (sweep w')) (ha : Blind a) :
    Blind (Act.undoing sweep a) :=
  ha.tryCatch fun _ => (update hs).bind fun _ => throw _

lemma ofExcept (r : Except ClientError α) : Blind (Act.ofExcept r) := by
  cases r with
  | ok x => exact pure x
  | error e => exact throw e

lemma checked (r : Option α) : Blind (Act.checked r) := by
  cases r with
  | none => exact throw _
  | some x => exact pure x

lemma giving {f : α → β} (ha : Blind a) : Blind (a >>= fun x => Pure.pure (f x)) := ha.bind fun x => pure (f x)

/-- An operation that begins by looking at the world. -/
lemma get {f : World → Act β} (hf : ∀ w w', w.Alike w' → Agree (f w) (f w') w w') : Blind (MonadState.get >>= f) :=
  fun w w' h => .get (hf w w' h)

lemma live (h : Wrapper) : Blind h.live := get fun w w' hw => by
  rw [hw.isNull, hw.kind, hw.native]
  split
  · exact .throw hw _
  · exact .pure hw _

lemma data (s : Statement) : Blind s.data := get fun w w' hw => by
  rw [hw.data?]
  split
  · exact .pure hw _
  · exact .throw hw _

lemma requireStatus (d : StatementData) (needed : Status) (operation : String) :
    Blind (Statement.requireStatus d needed operation) := by
  unfold Statement.requireStatus
  split
  · exact throw _
  · exact pure _

end Blind
end Act

open Act

/-! ### Callbacks -/

namespace World
variable {w w' : World}

lemma blind_removeCallback (env : Nat) (key : Address) : Blind (removeCallback env key) := by
  intro w w' h
  unfold removeCallback
  rw [h.callback?]
  split
  · exact ⟨rfl, h⟩
  · exact ⟨rfl, h.modifyEnv _ _⟩

lemma Alike.setCallback (h : w.Alike w') (env : Nat) (key : Address) (c : Option Callback) :
    (World.setCallback env key c w).Alike (World.setCallback env key c w') := by
  unfold World.setCallback
  split
  · exact h
  · split
    · exact h.modifyEnv _ _
    · exact (blind_removeCallback env key h).2

lemma Alike.notifyFailover (h : w.Alike w') (env : Nat) (conn : Address) (event : FailoverEvent) :
    (World.notifyFailover env conn event w).2.Alike (World.notifyFailover env conn event w').2 := by
  unfold World.notifyFailover
  rw [h.callback?]
  split
  · exact h.record _ _
  · exact h

end World

/-! ### Wrappers -/

namespace Wrapper
variable {w w' : World}

lemma blind_acquire (id : Nat) : World.Blind (acquire id) := fun _ _ h => ⟨rfl, h.modifyNode _ _⟩

lemma blind_addNode (node : Node) : World.Blind (addNode node) := by
  intro w w' h
  have hadd : World.Alike { w with nodes := w.nodes.add node } { w' with nodes := w'.nodes.add node } :=
    { h with nodes := by rw [h.nodes] }
  unfold addNode
  dsimp only
  rw [h.nodes] at hadd ⊢
  refine ⟨rfl, World.Alike.note (World.Alike.modifyEnv ?_ _ _) _ _⟩
  split
  · exact hadd.modifyNode _ _
  · exact hadd

lemma blind_wrap (env : Nat) (native : Address) (kind : HandleKind) (parent : Option Wrapper) (owned : Bool)
    (onRelease : ReleaseAction) : Blind (wrap env native kind parent owned onRelease) := by
  unfold wrap
  dsimp only
  split
  · exact .throw_bind _ _
  · refine Blind.get fun w w' h => ?_
    rw [h.stored?]
    have hnode : ∀ id, (Wrapper.mk (some id)).liveNode? w' = (Wrapper.mk (some id)).liveNode? w :=
      fun id => h.liveNode? _
    simp only [hnode]
    split
    · split
      · exact .throw_bind h _ _ _
      · exact Blind.modifyGet (blind_acquire _) h
    · cases parent with
      | none => exact Blind.modifyGet (blind_addNode _) h
      | some p =>
        dsimp only
        rw [h.liveNode?, h.kind]
        split
        · exact Blind.modifyGet (blind_addNode _) h
        · exact .throw_bind h _ _ _

lemma blind_adopt (env : Nat) (native : Address) (kind : HandleKind) (parent : Wrapper) (onRelease : ReleaseAction) :
    Blind (adopt env native kind parent onRelease) :=
  (blind_wrap env native kind (some parent) true onRelease).tryCatch fun e =>
    (Blind.native (Library.blind_destroy kind native)).bind fun _ => .throw e

lemma alike_drop (x : Wrapper) (h : w.Alike w') : (x.drop w).Alike (x.drop w') := by
  unfold drop
  cases x.node with
  | none => exact h
  | some id =>
    have hfewer := h.modifyNode id fun n => { n with holders := n.holders - 1 }
    dsimp only
    rw [h.nodes]
    split
    · exact (World.blind_release id hfewer).2
    · exact hfewer

lemma blind_clone (x : Wrapper) : World.Blind x.clone := by
  intro w w' h
  unfold clone
  rw [h.liveNode?]
  split
  · exact blind_acquire _ h
  · exact ⟨rfl, h⟩

lemma blind_setExtra (x : Wrapper) (e : Extra) : Blind (x.setExtra e) := Blind.get fun w w' h => by
  rw [h.liveNode?, h.kind]
  split
  · exact .throw h _
  · exact Blind.update (fun _ _ hv => (hv.modifyNode _ _).freeBuffers _) h

lemma blind_takeExtra (x : Wrapper) (ty : ExtraType) : World.Blind (x.takeExtra ty) := by
  intro w w' h
  unfold takeExtra
  rw [h.liveNode?]
  split
  · exact World.blind_takeExtra _ ty h
  · exact ⟨rfl, h⟩

lemma blind_findChild (x : Wrapper) (p : Node → Bool) : World.Blind (x.findChild p) := by
  intro w w' h
  unfold findChild
  rw [h.liveNode?]
  split
  · exact ⟨rfl, h⟩
  · rw [h.nodes]
    split
    · exact ⟨rfl, h.modifyNode _ _⟩
    · exact ⟨rfl, h⟩

lemma blind_releaseEach (ids : List Nat) : World.Blind (releaseEach ids) := by
  induction ids with
  | nil => exact fun _ _ h => ⟨rfl, h⟩
  | cons id rest ih =>
    intro w w' h
    obtain ⟨h1, h2⟩ := World.blind_release id h
    obtain ⟨h3, h4⟩ := ih h2
    exact ⟨by simp only [releaseEach, h1, h3], h4⟩

lemma blind_releaseChildren (x : Wrapper) (p : Node → Bool) : World.Blind (x.releaseChildren p) := by
  intro w w' h
  unfold releaseChildren
  rw [h.liveNode?, h.nodes]
  split
  · exact ⟨rfl, h⟩
  · exact blind_releaseEach _ h

end Wrapper

/-! ### Connections and environments -/

namespace Connection

lemma blind_setAttr (c : Connection) (attr : Attr) (v : Value) : Blind (c.setAttr attr v) :=
  (Blind.live _).bind fun _ => .require (Library.blind_setAttr _ attr v)

lemma blind_setTimeoutList (c : Connection) (ts : List (Attr × Option Duration)) : Blind (c.setTimeoutList ts) := by
  induction ts with
  | nil => exact .pure ()
  | cons t rest ih =>
    obtain ⟨attr, _ | d⟩ := t
    · exact ih
    · exact (Blind.checked _).bind fun _ => (c.blind_setAttr attr _).bind fun _ => ih

lemma blind_setCredentials (c : Connection) (cr : Credentials) : Blind (c.setCredentials cr) := by
  cases cr with
  | password username password => exact (c.blind_setAttr _ _).bind fun _ => c.blind_setAttr _ _
  | external => exact c.blind_setAttr _ _

lemma blind_serverVersion (c : Connection) : Blind c.serverVersion := by
  refine (Blind.live _).bind fun h => (Blind.require (Library.blind_getAttr h _)).bind fun v => ?_
  split
  · exact .throw _
  · split
    · exact .pure _
    · exact .throw _

lemma blind_breakCall (c : Connection) : Blind c.breakCall :=
  (Blind.live _).bind fun h => .require (Library.blind_breakCall h)

lemma blind_setFailoverHandler (c : Connection) (handler : Option FailoverHandler) :
    Blind (c.setFailoverHandler handler) :=
  (Blind.live _).bind fun h => .update fun _ _ hw => hw.setCallback c.env h _

lemma blind_clone (c : Connection) : World.Blind c.clone := fun _ _ h =>
  ⟨congrArg (Connection.mk c.env) (c.handle.blind_clone h).1, (c.handle.blind_clone h).2⟩

lemma blind_connect (env : Nat) (root : Wrapper) (params : ConnectParams) : Blind (connect env root params) := by
  refine (Blind.live root).bind fun parent => (Blind.require (Library.blind_create _ parent)).bind fun native =>
    (Wrapper.blind_adopt env native _ root _).bind fun handle => ?_
  have hset : Blind (do
      (Connection.mk env handle).setAttr .dbLink (.string params.dblink)
      (Connection.mk env handle).setCredentials params.credentials
      (Connection.mk env handle).setTimeouts params.timeouts) :=
    (blind_setAttr _ _ _).bind fun _ => (blind_setCredentials _ _).bind fun _ => blind_setTimeoutList _ _
  refine (Blind.undoing (fun _ _ hw => handle.alike_drop hw) hset).bind fun _ => Blind.get fun w w' hw => ?_
  rw [hw.native]
  exact (Blind.note _).bind (fun _ => .pure _) hw

end Connection

namespace Environment

lemma blind_create (params : InitParams) : Blind (create params) := by
  refine Blind.get fun w w' h => ?_
  rw [h.envs]
  have hadd : Blind (update fun w => { w with envs := w.envs.add (initialState params) }) :=
    Blind.update fun _ _ hw => { hw with envs := by rw [hw.envs] }
  exact (hadd.bind fun _ => (Blind.require (Library.blind_create _ _)).bind fun native =>
    (Wrapper.blind_wrap _ native _ none true _).bind fun root => (Blind.note _).bind fun _ => .pure _) h

lemma blind_cleanup (e : Environment) : World.Blind e.cleanup := by
  intro w w' h
  unfold cleanup
  rw [h.isNull]
  split
  · exact ⟨rfl, h⟩
  · exact ⟨rfl, (((e.root.alike_drop h).modifyEnv e.env _).modifyEnv e.env _).note _ _⟩

lemma alike_drop (e : Environment) {w w' : World} (h : w.Alike w') : (e.drop w).Alike (e.drop w') := by
  obtain ⟨h1, h2⟩ := e.blind_cleanup h
  change ((e.cleanup w).1.root.drop (e.cleanup w).2).Alike ((e.cleanup w').1.root.drop (e.cleanup w').2)
  rw [h1]
  exact Wrapper.alike_drop _ h2

lemma blind_allocate (e : Environment) (kind : HandleKind) (parent : Option Wrapper) : Blind (e.allocate kind parent) :=
  (Blind.live _).bind fun h => (Blind.require (Library.blind_create kind h)).bind fun native =>
    Wrapper.blind_wrap _ native kind _ true _

end Environment

/-! ### Resultsets -/

namespace Resultset

/-- An error is explained in the same way. -/
lemma explain_eq {w w' : World} (h : w.Alike w') (rs : Resultset) (row : Option Nat) :
    rs.explain w' row = rs.explain w row := by
  funext e
  rw [explain, explain, h.native]

lemma blind_explained (rs : Resultset) {α : Type} (row : Option Nat) (e : ClientError) :
    Blind (do throw (rs.explain (← MonadState.get) row e) : Act α) := Blind.get fun w w' h => by
  rw [explain_eq h]
  exact .throw h _

lemma blind_fetch (rs : Resultset) (op : FetchOp) : Blind (rs.fetch op) := by
  refine (Blind.live _).bind fun h => (Blind.native (Library.blind_fetch h op)).bind fun r => ?_
  split
  · exact .pure _
  · refine (Blind.native Library.blind_takeError).bind fun e => ?_
    split
    · exact .pure _
    · exact (Blind.native (Library.blind_currentRow h)).bind fun row => rs.blind_explained row _

lemma blind_scrolling (rs : Resultset) (operation : String) : Blind (rs.scrolling operation) := by
  unfold scrolling
  split
  · exact .throw _
  · exact .pure _

lemma blind_currentRow (rs : Resultset) : Blind rs.currentRow :=
  (Blind.live _).bind fun h => Blind.get fun w w' hw => by
    rw [explain_eq hw]
    exact Blind.require (Library.blind_currentRow h) hw

lemma blind_columnCount (rs : Resultset) : Blind rs.columnCount :=
  (Blind.live _).bind fun h => Blind.get fun w w' hw => by
    rw [explain_eq hw]
    exact Blind.require (Library.blind_columnCount h) hw

lemma blind_column (rs : Resultset) (index : Nat) : Blind (rs.column index) := by
  refine rs.blind_columnCount.bind fun count => ?_
  dsimp only
  split
  · exact .throw_bind _ _
  · refine (Blind.live _).bind fun h => (Blind.native (Library.blind_columnValue h index)).bind fun v => ?_
    split
    · exact .pure _
    · exact (Blind.native Library.blind_lastError).bind fun e =>
        (Blind.native (Library.blind_currentRow h)).bind fun row => rs.blind_explained row _

lemma blind_get (rs : Resultset) (index : Nat) (r : Request) : Blind (rs.get index r) :=
  (rs.blind_column index).bind fun _ => .ofExcept _

end Resultset
end DbClient
