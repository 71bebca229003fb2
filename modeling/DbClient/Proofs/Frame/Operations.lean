import DbClient.Proofs.Frame.World
import DbClient.Proofs.Moves.Opening

/-! The frames of operations. All but those on a statement leave the data of all statements alone, whether they fail
or not, and those on a statement leave the data of the others alone. -/
namespace DbClient
open Act World

variable {w : World} {id : Nat} {V : Table HostVar → Table HostVar → Prop}
  {R : StatementData → StatementData → Prop} [Std.Refl V] [Std.Refl R]

/-! ### Callbacks -/

namespace World.Alters

lemma removeCallback (env : Nat) (key : Address) (w : World) : Alters V id R w (w.removeCallback env key).2 := by
  unfold World.removeCallback
  split
  · exact refl w
  · exact modifyEnv (f := fun e => { e with callbacks := e.callbacks.erase key }) (fun _ => rfl) env w

lemma setCallback (env : Nat) (key : Address) (c : Option Callback) (w : World) :
    Alters V id R w (w.setCallback env key c) := by
  unfold World.setCallback
  split
  · exact refl w
  · split
    · rename_i c
      exact modifyEnv (f := fun e => { e with callbacks := e.callbacks.put key c }) (fun _ => rfl) env w
    · exact removeCallback env key w

lemma clearCallbacks (env : Nat) (w : World) : Alters V id R w (w.clearCallbacks env) :=
  modifyEnv (f := fun e => { e with callbacks := ∅ }) (fun _ => rfl) env w

lemma notifyFailover (env : Nat) (conn : Address) (event : FailoverEvent) (w : World) :
    Alters V id R w (w.notifyFailover env conn event).2 := by
  unfold World.notifyFailover
  split
  · exact of_eq rfl rfl rfl
  · exact refl w

end World.Alters

/-! ### Wrappers -/

namespace Wrapper

lemma alters_acquire (i : Nat) (w : World) : Alters V id R w (acquire i w).2 :=
  Alters.modifyNode (f := fun n => { n with holders := n.holders + 1 }) (fun _ _ hr hx => ⟨hr, hx⟩) i w

lemma alters_clone (h : Wrapper) (w : World) : Alters V id R w (h.clone w).2 := by
  unfold clone
  split
  · exact alters_acquire _ w
  · exact Alters.refl w

lemma alters_findChild (h : Wrapper) (p : Node → Bool) (w : World) : Alters V id R w (h.findChild p w).2 := by
  unfold findChild
  split
  · exact Alters.refl w
  · split
    · exact alters_acquire _ w
    · exact Alters.refl w

lemma alters_takeExtra (h : Wrapper) (ty : ExtraType) (w : World) : Alters V id R w (h.takeExtra ty w).2 := by
  unfold takeExtra
  split
  · unfold World.takeExtra
    split
    · split
      · exact Alters.modifyNode (f := fun n => { n with extra := none }) (fun _ _ _ hx => by cases hx) _ w
      · exact Alters.refl w
    · exact Alters.refl w
  · exact Alters.refl w

end Wrapper

variable [IsTrans _ V] [IsTrans _ R]

namespace Wrapper

/-- What an application attaches to a handle are no data of a statement. -/
lemma alters_setExtra (h : Wrapper) {e : Extra} (he : ∀ d, e ≠ .statement d) :
    Does (Alters V id R) (h.setExtra e) w := by
  unfold setExtra
  apply Does.get
  split
  · exact Does.throw _
  · rename_i i node _
    have hset : Alters V id R w (w.modifyNode i fun n => { n with extra := some e }) :=
      Alters.modifyNode (f := fun n => { n with extra := some e })
        (fun _ d _ hx => absurd (Option.some.inj hx) (he d)) i w
    exact hset.trans (.of_eq rfl rfl rfl)

lemma alters_wrap (env : Nat) (native : Address) (kind : HandleKind) (parent : Option Wrapper) (owned : Bool)
    (onRelease : ReleaseAction) : Does (Alters V id R) (wrap env native kind parent owned onRelease) w := by
  unfold wrap
  dsimp only
  split
  · exact Does.throw_bind _
  · apply Does.get
    split
    · split
      · exact Does.throw_bind _
      · exact alters_acquire _ w
    · split
      · exact Alters.addNode _ w
      · split
        · exact Alters.addNode _ w
        · exact Does.throw_bind _

lemma alters_adopt (env : Nat) (native : Address) (kind : HandleKind) (parent : Wrapper) (onRelease : ReleaseAction) :
    Does (Alters V id R) (adopt env native kind parent onRelease) w :=
  (alters_wrap env native kind (some parent) true onRelease).tryCatch fun _ _ _ _ =>
    (Alters.native _).seq fun _ _ _ => Does.throw _

end Wrapper

/-- Work that is swept up after if it fails. -/
lemma World.Alters.undoing {α : Type} {a : Act α} {sweep : World → World} (ha : Does (Alters V id R) a w)
    (hs : ∀ w, Alters V id R w (sweep w)) : Does (Alters V id R) (Act.undoing sweep a) w := by
  refine ha.tryCatch fun _ v _ _ => ?_
  have hsweep : Does (Alters V id R) (update sweep) v := hs v
  exact hsweep.seq fun _ _ _ => Does.throw _

/-! ### Connections -/

namespace Connection

lemma alters_setAttr (c : Connection) (attr : Attr) (v : Value) : Does (Alters V id R) (c.setAttr attr v) w :=
  Does.live fun _ _ _ _ => Alters.require _ _

lemma alters_setTimeouts (c : Connection) (t : Timeouts) : Does (Alters V id R) (c.setTimeouts t) w :=
  does_setTimeoutList (fun attr v _ => c.alters_setAttr attr v) _ w

lemma alters_setCredentials (c : Connection) (cr : Credentials) : Does (Alters V id R) (c.setCredentials cr) w :=
  does_setCredentials (fun attr v _ => c.alters_setAttr attr v) cr w

lemma alters_serverVersion (c : Connection) : Does (Alters V id R) c.serverVersion w := by
  refine Does.live fun _ _ _ _ => (Alters.require _ _).seq fun v _ _ => ?_
  split
  · exact Does.throw _
  · split
    · exact Does.pure _
    · exact Does.throw _

lemma alters_connect (env : Nat) (root : Wrapper) (params : ConnectParams) :
    Does (Alters V id R) (connect env root params) w := by
  refine Does.live fun _ _ _ _ => (Alters.require _ _).seq fun native _ _ =>
    (Wrapper.alters_adopt env native _ root _).seq fun handle _ _ => ?_
  refine (Alters.undoing ?_ (Alters.drop handle)).seq fun _ _ _ =>
    Does.get ((Alters.note _).seq fun _ _ _ => Does.pure _)
  exact (alters_setAttr _ _ _).seq fun _ _ _ => (alters_setCredentials _ _).seq fun _ _ _ => alters_setTimeouts _ _

end Connection

/-! ### Environments -/

namespace Environment

lemma alters_create (params : InitParams) : Does (Alters V id R) (create params) w := by
  apply Does.get
  have hadd : Does (Alters V id R) (update fun w => { w with envs := w.envs.add (initialState params) }) w :=
    Alters.addEnv _ w
  exact hadd.seq fun _ _ _ => (Alters.require _ _).seq fun _ _ _ => (Wrapper.alters_wrap _ _ _ _ _ _).seq fun _ _ _ =>
    (Alters.note _).seq fun _ _ _ => Does.pure _

lemma alters_cleanup (e : Environment) (w : World) : Alters V id R w (e.cleanup w).2 := by
  unfold cleanup
  split
  · exact Alters.refl w
  · have hdrop : Alters V id R w (e.root.drop w) := Alters.drop e.root w
    have hrelease := hdrop.trans (Alters.clearCallbacks e.env _)
    have hmode := hrelease.trans (Alters.modifyEnv (f := fun s => { s with sync := .unguarded }) (fun _ => rfl) e.env _)
    exact hmode.trans (.of_eq rfl rfl rfl)

lemma alters_allocate (e : Environment) (kind : HandleKind) (parent : Option Wrapper) :
    Does (Alters V id R) (e.allocate kind parent) w :=
  Does.live fun _ _ _ _ => (Alters.require _ _).seq fun _ _ _ => Wrapper.alters_wrap _ _ _ _ _ _

end Environment

/-! ### Resultsets -/

namespace Resultset

lemma alters_fetch (rs : Resultset) (op : FetchOp) : Does (Alters V id R) (rs.fetch op) w := by
  refine Does.live fun _ _ _ _ => (Alters.native _).seq fun r _ _ => ?_
  split
  · exact Does.pure _
  · refine (Alters.native _).seq fun e _ _ => ?_
    split
    · exact Does.pure _
    · exact (Alters.native _).seq fun _ _ _ => Does.get (Does.throw _)

omit [IsTrans _ V] [IsTrans _ R] in
lemma alters_scrolling (rs : Resultset) (operation : String) {α : Type} {f : Unit → Act α}
    (hf : Does (Alters V id R) (f ()) w) : Does (Alters V id R) (rs.scrolling operation >>= f) w := by
  unfold scrolling
  split
  · exact Does.throw_bind _
  · exact hf

lemma alters_columnCount (rs : Resultset) : Does (Alters V id R) rs.columnCount w :=
  Does.live fun _ _ _ _ => Does.get (Alters.require _ _)

lemma alters_column (rs : Resultset) (index : Nat) : Does (Alters V id R) (rs.column index) w := by
  refine rs.alters_columnCount.seq fun count _ _ => ?_
  dsimp only
  split
  · exact Does.throw_bind _
  · refine Does.live fun _ _ _ _ => (Alters.native _).seq fun r _ _ => ?_
    split
    · exact Does.pure _
    · exact (Alters.native _).seq fun _ _ _ => (Alters.native _).seq fun _ _ _ => Does.get (Does.throw _)

end Resultset

/-! ### Statements -/

namespace Statement

lemma alters_drop (s : Statement) (w : World) : Alters V id R w (s.drop w) :=
  (Alters.drop s.conn.handle w).trans (Alters.drop s.handle _)

lemma alters_releaseResultsets (s : Statement) : Does (Alters V id R) s.releaseResultsets w :=
  Alters.releasing.releaseChildren s.handle _ w

lemma alters_register (s : Statement) (name : String) (ty : ValueType) (maxLength : Nat) :
    Does (Alters V id R) (s.register name ty maxLength) w := by
  refine Does.live fun _ _ _ _ => Does.data fun _ _ _ _ _ _ => Does.requireStatus fun _ => ?_
  split
  · exact Does.throw_bind _
  · exact Alters.require _ _

lemma alters_affectedRows (s : Statement) : Does (Alters V id R) s.affectedRows w := by
  refine Does.live fun _ _ _ _ => (Alters.require _ _).seq fun _ _ _ => ?_
  split
  · exact Does.pure _
  · exact Does.throw _

lemma alters_takeResultset (s : Statement) (operation : String) (ask : Address → Library → Option Address × Library) :
    Does (Alters V id R) (s.takeResultset operation ask) w := by
  refine Does.live fun _ _ _ _ => Does.data fun _ _ _ _ _ _ => Does.requireStatus fun _ =>
    (Alters.optional _ _).seq fun r _ _ => ?_
  split
  · exact Does.pure _
  · exact (Wrapper.alters_wrap _ _ _ _ _ _).seq fun _ _ _ => Does.pure _

end Statement
end DbClient
