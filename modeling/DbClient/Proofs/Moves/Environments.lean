import DbClient.Proofs.Moves.Creation
import DbClient.Proofs.Quiet.Operations

/-! The operations on environments and connections as paths of moves. -/
namespace DbClient
open Act World

variable {t : Terms} {hs : Multiset Nat} {w : World}

namespace Environment

/-- There is an environment as soon as its state has been made. -/
lemma housed_add (e : EnvState) (w : World) : World.Housed { w with envs := w.envs.add e } w.envs.next := by
  change Option.isSome (((w.envs.add e).get? w.envs.next).map EnvState.store) = true
  rw [Table.get?_add, if_pos rfl]
  rfl

/-- The root of an environment is made for the state that is there already. -/
lemma takes_root {env : Nat} (note : Address → Notice) (he : w.Housed env) :
    Takes t hs hs (fun e : Environment => e.root.points) (do
      let native ← Act.require (fun e => e) (Library.create .environment .null)
      let root ← Wrapper.wrap env native .environment none true .nothing
      Act.note (note native)
      pure ⟨env, root⟩) w := by
  refine Wrapper.takes_created none none .nothing _ he rfl rfl (.inr rfl) fun native root w' _ _ => ?_
  exact Takes.note _ (Takes.pure _)

theorem takes_create (params : InitParams) : Takes t hs hs (fun e => e.root.points) (create params) w := by
  intro hw
  have hopen : Move t hs w hs { w with envs := w.envs.add (initialState params) } := .openEnv rfl
  exact Relation.ReflTransGen.trans hopen.path (takes_root _ (housed_add _ w) (hopen.sound hw))

lemma env_of_create {params : InitParams} {e : Environment} {w' : World}
    (h : (create params).run w = (.ok e, w')) : e.env = w.envs.next := by
  obtain ⟨_, _, hget, hopen⟩ := ok_of_bind h
  obtain ⟨h1, rfl⟩ := Prod.mk.inj hget
  obtain rfl := Except.ok.inj h1
  obtain ⟨_, _, -, hcreate⟩ := ok_of_bind hopen
  obtain ⟨_, _, -, hwrap⟩ := ok_of_bind hcreate
  obtain ⟨_, _, -, hnote⟩ := ok_of_bind hwrap
  obtain ⟨_, _, -, hend⟩ := ok_of_bind hnote
  obtain ⟨h2, -⟩ := Prod.mk.inj hend
  exact congrArg Environment.env (Except.ok.inj h2).symm

lemma housed_create {params : InitParams} {e : Environment} {w' : World} (hw : Sound hs w)
    (h : (create params).run w = (.ok e, w')) : w'.Housed e.env := by
  have hopen : Move ⟨false, false⟩ hs w hs { w with envs := w.envs.add (initialState params) } := .openEnv rfl
  have hp := takes_root (t := ⟨false, false⟩)
    (fun native => .initialized native params.mode (initialState params).sync)
    (housed_add (initialState params) w) (hopen.sound hw)
  have hh := Path.housed hp (hopen.sound hw) (housed_add (initialState params) w)
  rw [env_of_create h]
  change World.Housed ((create params).run w).2 _ at hh
  rwa [h] at hh

/-- To clean up an environment is to drop its root, and quiet. -/
lemma path_cleanup (e : Environment) (w : World) :
    Path t (e.root.points + hs, w) ((e.cleanup w).1.root.points + hs, (e.cleanup w).2) := by
  unfold cleanup
  split
  · exact Relation.ReflTransGen.refl
  · apply Relation.ReflTransGen.trans (e.root.path_drop w)
    have hq : Quiet (e.root.drop w) ((((e.root.drop w).clearCallbacks e.env).modifyEnv e.env
        fun s => { s with sync := .unguarded }).note (.cleanedUp (e.root.native w))) :=
      ((Quiet.clearCallbacks e.env _).trans
        (Quiet.modifyEnv (f := fun s => { s with sync := .unguarded }) (fun _ => rfl) e.env _)).trans
        (Quiet.of_eq rfl rfl rfl rfl rfl)
    exact (Multiset.zero_add hs).symm ▸ (Move.quiet hq).path

lemma path_drop (e : Environment) (w : World) : Path t (e.root.points + hs, w) (hs, e.drop w) :=
  Relation.ReflTransGen.trans (e.path_cleanup w) ((e.cleanup w).1.root.path_drop (e.cleanup w).2)

theorem takes_allocate (e : Environment) (kind : HandleKind) (parent : Option Wrapper)
    (he : w.Housed e.env) : Takes t hs hs Wrapper.points (e.allocate kind parent) w := by
  unfold allocate
  dsimp only
  refine Takes.live fun id n hid hl => ?_
  obtain ⟨hq, hnat⟩ := World.LeadsTo.nativeOf hid hl
  have hlast : Wrapper.Continues t hs e.env Wrapper.points fun _ h => pure h := fun _ h _ _ _ => Takes.pure h
  have h := Wrapper.takes_created _ _ .nothing kind he hq hnat.symm (.inl ⟨id, n, hl, rfl⟩) hlast
  simp only [bind_pure] at h
  exact h

end Environment

namespace Connection

/-- What is done with a new connection before it is handed out. -/
lemma continues_connect (env : Nat) (params : ConnectParams) : Wrapper.Continues t hs env
    (fun c : Connection => c.handle.points) (fun _ handle => do
      let c : Connection := ⟨env, handle⟩
      Act.undoing handle.drop do
        c.setAttr .dbLink (.string params.dblink)
        c.setCredentials params.credentials
        c.setTimeouts params.timeouts
      Act.note (.connected (handle.native (← get)) params.dblink)
      pure c) := by
  intro native handle w' _ _
  refine Takes.bind (Takes.undoing handle.path_drop (Course.ofQuiet ?_)) fun _ v _ _ => ?_
  · exact (quiet_setAttr ⟨env, handle⟩ _ _).seq fun _ _ _ =>
      (quiet_setCredentials ⟨env, handle⟩ _).seq fun _ _ _ => quiet_setTimeouts ⟨env, handle⟩ _
  · have hlast : Takes t (handle.points + hs) hs (fun c : Connection => c.handle.points)
        (pure ⟨env, handle⟩) (v.note (.connected (handle.native v) params.dblink)) := Takes.pure _
    exact Takes.get (Takes.note _ hlast)

theorem takes_connect (env : Nat) (root : Wrapper) (params : ConnectParams) (he : w.Housed env) :
    Takes t hs hs (fun c => c.handle.points) (connect env root params) w :=
  Takes.live fun _ _ hid hl => Wrapper.takes_adopted he hid hl (continues_connect env params)

end Connection
end DbClient
