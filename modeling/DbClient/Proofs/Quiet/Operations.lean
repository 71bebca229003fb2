import DbClient.Environment
import DbClient.Proofs.Quiet.World
import DbClient.Proofs.Transfer.Exchange
import DbClient.Statement

/-! The operations that are quiet: those that read, set attributes, move cursors and exchange data. -/
namespace DbClient
open Act World World.Quiet
variable {w : World} {stmt : Address}

namespace World.Quiet

lemma sets (id : Nat) (v : HostVar) : Does Quiet (update (World.setVar id v)) w :=
  of_eq rfl rfl rfl rfl rfl

lemma writes (buffer offset : Nat) (bytes : List UInt8) :
    Does Quiet (update (World.writeBuffer buffer offset bytes)) w := writeBuffer buffer offset bytes w

lemma removeCallback (env : Nat) (key : Address) (w : World) : Quiet w (w.removeCallback env key).2 := by
  unfold World.removeCallback
  split
  · rfl
  · exact modifyEnv (f := fun e => { e with callbacks := e.callbacks.erase key }) (fun _ => rfl) env w

lemma setCallback (env : Nat) (key : Address) (c : Option Callback) (w : World) :
    Quiet w (w.setCallback env key c) := by
  unfold World.setCallback
  split
  · rfl
  · split
    · rename_i c
      exact modifyEnv (f := fun e => { e with callbacks := e.callbacks.put key c }) (fun _ => rfl) env w
    · exact removeCallback env key w

lemma clearCallbacks (env : Nat) (w : World) : Quiet w (w.clearCallbacks env) :=
  modifyEnv (f := fun e => { e with callbacks := ∅ }) (fun _ => rfl) env w

lemma notifyFailover (env : Nat) (conn : Address) (event : FailoverEvent) (w : World) :
    Quiet w (w.notifyFailover env conn event).2 := by
  unfold World.notifyFailover
  split
  · exact of_eq rfl rfl rfl rfl rfl
  · rfl

end World.Quiet

/-! ### Connections -/

namespace Connection

lemma quiet_setAttr (c : Connection) (attr : Attr) (v : Value) : Does Quiet (c.setAttr attr v) w :=
  Does.live fun id n _ hl => require fun l => .setAttr ⟨id, n, hl, rfl⟩ attr v l

lemma setTimeoutList_some (c : Connection) (attr : Attr) (d : Duration) (rest : List (Attr × Option Duration)) :
    c.setTimeoutList ((attr, some d) :: rest) = (do
      let n ← Act.checked d.millis?
      c.setAttr attr (.int .uint64 n)
      c.setTimeoutList rest) := rfl

section
variable {R : World → World → Prop} [IsTrans World R] {c : Connection}

/-- What holds across the setting of single attributes holds across that of timeouts, -/
theorem does_setTimeoutList [Std.Refl R] (h : ∀ attr v w, Does R (c.setAttr attr v) w)
    (ts : List (Attr × Option Duration)) (w : World) : Does R (c.setTimeoutList ts) w := by
  induction ts generalizing w with
  | nil => exact Does.pure _
  | cons t rest ih =>
    obtain ⟨attr, _ | d⟩ := t
    · exact ih w
    · rw [setTimeoutList_some]
      exact (Does.checked _).seq fun _ _ _ => (h attr _ _).seq fun _ v _ => ih v

/-- and across that of credentials. -/
theorem does_setCredentials (h : ∀ attr v w, Does R (c.setAttr attr v) w) (cr : Credentials) (w : World) :
    Does R (c.setCredentials cr) w := by
  cases cr with
  | password username password => exact (h _ _ _).seq fun _ v _ => h _ _ v
  | external => exact h _ _ _

end

lemma quiet_setTimeouts (c : Connection) (t : Timeouts) : Does Quiet (c.setTimeouts t) w :=
  does_setTimeoutList (fun attr v _ => c.quiet_setAttr attr v) _ w

lemma quiet_setCredentials (c : Connection) (cr : Credentials) : Does Quiet (c.setCredentials cr) w :=
  does_setCredentials (fun attr v _ => c.quiet_setAttr attr v) cr w

lemma quiet_serverVersion (c : Connection) : Does Quiet c.serverVersion w := by
  refine Does.live fun id n _ hl => (require fun l => .getAttr ⟨id, n, hl, rfl⟩ _ l).seq fun v _ _ => ?_
  split
  · exact Does.throw _
  · split
    · exact Does.pure _
    · exact Does.throw _

lemma quiet_breakCall (c : Connection) : Does Quiet c.breakCall w :=
  Does.live fun id n _ hl => require fun l => .breakCall ⟨id, n, hl, rfl⟩ l

lemma quiet_setFailoverHandler (c : Connection) (handler : Option FailoverHandler) :
    Does Quiet (c.setFailoverHandler handler) w :=
  Does.live fun _ n _ _ => setCallback c.env n.native _ w

end Connection

/-! ### Resultsets -/

namespace Resultset

lemma quiet_fetch (rs : Resultset) (op : FetchOp) : Does Quiet (rs.fetch op) w := by
  refine Does.live fun id n _ hl => (native (.fetch ⟨id, n, hl, rfl⟩ _ _)).seq fun r w' hq => ?_
  split
  · exact Does.pure _
  · refine (native (.takeError _)).seq fun e w'' hq' => ?_
    split
    · exact Does.pure _
    · have hk : w''.Answers n.native := (hq.trans hq').answers ▸ ⟨id, n, hl, rfl⟩
      exact (native (.currentRow hk _)).seq fun _ _ _ => Does.get (Does.throw _)

lemma quiet_scrolling (rs : Resultset) (operation : String) : Does Quiet (rs.scrolling operation) w := by
  unfold scrolling
  split
  · exact Does.throw _
  · exact Does.pure _

lemma quiet_next (rs : Resultset) : Does Quiet rs.next w := rs.quiet_fetch _

lemma quiet_prev (rs : Resultset) : Does Quiet rs.prev w :=
  (rs.quiet_scrolling _).seq fun _ _ _ => rs.quiet_fetch _

lemma quiet_first (rs : Resultset) : Does Quiet rs.first w :=
  (rs.quiet_scrolling _).seq fun _ _ _ => rs.quiet_fetch _

lemma quiet_last (rs : Resultset) : Does Quiet rs.last w :=
  (rs.quiet_scrolling _).seq fun _ _ _ => rs.quiet_fetch _

lemma quiet_seek (rs : Resultset) (mode : SeekMode) (offset : Int) : Does Quiet (rs.seek mode offset) w :=
  (rs.quiet_scrolling _).seq fun _ _ _ => rs.quiet_fetch _

lemma quiet_currentRow (rs : Resultset) : Does Quiet rs.currentRow w :=
  Does.live fun id n _ hl => Does.get (require fun l => .currentRow ⟨id, n, hl, rfl⟩ l)

lemma quiet_columnCount (rs : Resultset) : Does Quiet rs.columnCount w :=
  Does.live fun id n _ hl => Does.get (require fun l => .columnCount ⟨id, n, hl, rfl⟩ l)

lemma quiet_column (rs : Resultset) (index : Nat) : Does Quiet (rs.column index) w := by
  refine rs.quiet_columnCount.seq fun count w' _ => ?_
  dsimp only
  split
  · exact Does.throw_bind _
  · refine Does.live fun id n _ hl => (native (.columnValue ⟨id, n, hl, rfl⟩ _ _)).seq fun r v hq => ?_
    split
    · exact Does.pure _
    · refine (native (.lastError _)).seq fun e v' hq' => ?_
      have hk : v'.Answers n.native := (hq.trans hq').answers ▸ ⟨id, n, hl, rfl⟩
      exact (native (.currentRow hk _)).seq fun _ _ _ => Does.get (Does.throw _)

lemma quiet_get (rs : Resultset) (index : Nat) (r : Request) : Does Quiet (rs.get index r) w :=
  (rs.quiet_column index).seq fun _ _ _ => Does.ofExcept _

end Resultset

/-! ### Exchange of data -/

namespace BindObject

lemma quiet_reportSize (o : BindObject) (hk : w.Answers stmt) (pos size : Nat) :
    Does Quiet (o.reportSize stmt pos size) w := require fun l => .setDataSize hk _ _ _ l

lemma quiet_askSize (o : BindObject) (hk : w.Answers stmt) (pos limit : Nat) :
    Does Quiet (o.askSize stmt pos limit) w :=
  (require fun l => .dataSize hk _ _ l).seq fun _ _ _ => Does.pure _

lemma quiet_loading (stmt : Address) (o : BindObject) : Loading Quiet (fun w => w.Answers stmt) stmt o where
  lasts _ _ hq hk := hq.answers ▸ hk
  write _ _ _ := writes _ _ _
  report _ pos size hk := o.quiet_reportSize hk pos size
  note _ n := note n

lemma quiet_unloading (stmt : Address) (arraySize : Nat) (o : BindObject) :
    Unloading Quiet (fun w => w.Answers stmt) stmt arraySize o where
  lasts _ _ hq hk := hq.answers ▸ hk
  ask _ pos limit hk := o.quiet_askSize hk pos limit
  single _ _ _ _ _ _ := sets _ _
  element _ _ _ _ _ _ _ _ := sets _ _
  note _ n := note n

end BindObject

namespace BindsHolder

lemma quiet_push (h : BindsHolder) (hk : w.Answers stmt) (arraySize : Nat) :
    Does Quiet (h.push stmt arraySize) w :=
  BindObject.does_exchangeAll (fun _ _ hq hk => hq.answers ▸ hk)
    (fun o _ _ hk => (BindObject.quiet_loading stmt o).push hk arraySize) hk

lemma quiet_pull (h : BindsHolder) (hk : w.Answers stmt) (arraySize : Nat) :
    Does Quiet (h.pull stmt arraySize) w :=
  BindObject.does_exchangeAll (fun _ _ hq hk => hq.answers ▸ hk)
    (fun o _ _ hk => (BindObject.quiet_unloading stmt arraySize o).pull hk) hk

end BindsHolder
end DbClient
