import DbClient.Proofs.Application.PrepareLaw
import DbClient.Proofs.Scope.InStep
import DbClient.Proofs.Scope.Places

/-! The law of settings in any application. The fetch mode of a statement and the size of its array are kept by the
statement and by the native library: what happens to both copies when one of them is set, or when the statement is given
another text. -/
namespace DbClient
open Act World

variable {again : Nat → Prop} {S : Scope} {w w' : World} {id : Nat} {n : Node} {d : StatementData} {s : Statement}
  {attr : Attr}

namespace Statement

/-- What the native library has been told of a setting of a statement. -/
def told? (s : Statement) (w : World) (attr : Attr) : Option Value := w.library.attr? (s.handle.native w) attr

/-- What the native library has been told of a setting, if anything, is what the statement has. -/
def InStep (s : Statement) (attr : Attr) (w : World) : Prop :=
  ∀ d v, s.data? w = some d → s.told? w attr = some v → d.setting? attr = some v

/-- A setting of a statement is set on both sides, and no other one; or the call fails, and nothing is set on either. -/
def Sets (s : Statement) (attr : Attr) (d e : StatementData) (a : Act Unit) (w : World) : Prop :=
  Ends a w fun r w' =>
    (r = .ok () ∧ s.data? w' = some e ∧ s.told? w' attr = e.setting? attr ∧
      ∀ other, other.IsSetting → other ≠ attr → s.told? w' other = s.told? w other) ∨
    (∃ x, r = .error x) ∧ s.data? w' = some d ∧ ∀ other, other.IsSetting → s.told? w' other = s.told? w other

/-! ### What is set -/

/-- A step that touches neither nodes nor settings. -/
structure Idle (w w' : World) : Prop where
  nodes : w'.nodes = w.nodes
  library : w.library.SameSettings w'.library

namespace Idle

lemma live (h : Idle w w') (hl : w.Live id n) : w'.Live id n := ⟨h.nodes ▸ hl.1, hl.2⟩

lemma trans {w'' : World} (h : Idle w w') (h' : Idle w' w'') : Idle w w'' where
  nodes := h'.nodes.trans h.nodes
  library := {
    next := h.library.next.trans h'.library.next
    attrs := fun a attr ha => (h'.library.attrs a attr ha).trans (h.library.attrs a attr ha) }

lemma data? (h : Idle w w') (s : Statement) : s.data? w' = s.data? w := by
  simp only [Statement.data?, Wrapper.extra?, Wrapper.liveNode?, h.nodes]

lemma told? (h : Idle w w') (s : Statement) (ha : attr.IsSetting) : s.told? w' attr = s.told? w attr := by
  have hnative : s.handle.native w' = s.handle.native w := by
    simp only [Wrapper.native, Wrapper.liveNode?, h.nodes]
  rw [Statement.told?, Statement.told?, hnative]
  exact h.library.attrs _ attr ha

/-- The native library refuses to set an attribute. -/
lemma refused {h : Address} {v : Value} {l : Library} (hc : Library.setAttr h attr v w.library = (none, l)) :
    Idle w { w with library := l.lastError.2 } := by
  have hnone : (Library.setAttr h attr v w.library).1.isSome = false := by rw [hc]; rfl
  have hsame := Library.attr?_setAttr_of_none hnone
  have hnext := ((Invocation.setAttr h attr v).beside w.library).next
  rw [show (Invocation.setAttr h attr v).run w.library = Invocation.gave (_, l) from
    congrArg Invocation.gave hc] at hnext
  rw [hc] at hsame
  exact ⟨rfl, hnext, fun a other _ => hsame a other⟩

/-- A call fails in such a step. -/
lemma unset (h : Idle w w') (hd : s.data? w = some d) (x : ClientError) :
    (∃ y : ClientError, (.error x : Except ClientError Unit) = .error y) ∧ s.data? w' = some d ∧
      ∀ other, other.IsSetting → s.told? w' other = s.told? w other :=
  ⟨⟨x, rfl⟩, (h.data? s).trans hd, fun _ ho => h.told? s ho⟩

end Idle

/-- What is told in the native library, and then kept in the data. -/
lemma sets_after {dress : ClientError → ClientError} {e : StatementData} {v : Value} (hid : s.handle.node = some id)
    (hl : w.Live id n) (hx : n.Keeps d) (he : e.setting? attr = some v) {rest : Unit → Act Unit}
    (hrest : ∀ l, (rest ()).run { w with library := l } = (.ok (), s.putData e { w with library := l })) :
    s.Sets attr d e (Act.require dress (Library.setAttr n.native attr v) >>= rest) w := by
  refine Ends.require (fun ⟨⟩ l hc => .inl ?_) fun l hc => .inr ?_
  · have hl' : World.Live { w with library := l } id n := hl
    have hput := hl'.keeping e
    rw [← putData_of_live hid hl'] at hput
    have hlib : (s.putData e { w with library := l }).library = l := by
      rw [putData_of_live hid hl']
      rfl
    rw [hrest l]
    refine ⟨rfl, data?_eq_some.mpr ⟨id, _, hid, hput, rfl⟩, ?_, fun other _ hne => ?_⟩
    · rw [told?, Wrapper.native_of_live hid hput, hlib, Library.attr?_setAttr hc, he]
      exact if_pos rfl
    · rw [told?, told?, Wrapper.native_of_live hid hput, Wrapper.native_of_live hid hl, hlib, Library.attr?_setAttr hc]
      exact if_neg fun h => hne (congrArg Prod.snd h).symm
  · exact (Idle.refused hc).unset (data?_eq_some.mpr ⟨id, n, hid, hl, hx⟩) _

theorem sets_setArraySize (hid : s.handle.node = some id) (hl : w.Live id n) (hx : n.Keeps d) (size : Nat) :
    s.Sets .bindArraySize d { d with
      arraySize := size, initialArraySize := if d.binds.isEmpty then size else d.initialArraySize }
      (s.setArraySize size) w := by
  have hdata : s.data? w = some d := data?_eq_some.mpr ⟨id, n, hid, hl, hx⟩
  have hidle : Idle w w := ⟨rfl, .of_eq rfl rfl⟩
  refine Ends.liveOf hid hl (Ends.dataOf hdata (Ends.requireStatus (fun _ => ?_) fun _ => .inr (hidle.unset hdata _)))
  dsimp only
  generalize (if d.binds.isEmpty then BindIndex.maxSize else d.initialArraySize) = limit
  split
  · exact .inr (hidle.unset hdata _)
  · exact sets_after hid hl hx rfl fun _ => rfl

/-- The version of the server is asked for, and nothing is set. -/
lemma idle_serverVersion (c : Connection) (w : World) : Ends c.serverVersion w fun _ w' => Idle w w' := by
  refine Ends.live (fun id n _ _ => ?_) fun _ => ⟨rfl, .of_eq rfl rfl⟩
  have hask : ∀ {v : Option Value} {l : Library}, Library.getAttr n.native .serverVersion w.library = (v, l) →
      w.library.SameSettings l := fun {v l} hc => by
    have h := Library.SameSettings.of_silent (i := .getAttr n.native .serverVersion) trivial w.library
    rwa [show (Invocation.getAttr n.native .serverVersion).run w.library = Invocation.gave (_, l) from
      congrArg Invocation.gave hc] at h
  refine Ends.require (fun v l hc => ?_) fun l hc => ⟨rfl, (hask hc).next, (hask hc).attrs⟩
  cases v.toHost? .string with
  | none => exact ⟨rfl, hask hc⟩
  | some banner =>
    dsimp only
    cases Version.ofBanner banner with
    | ok version => exact ⟨rfl, hask hc⟩
    | error e => exact ⟨rfl, hask hc⟩

theorem sets_setFetchMode (hid : s.handle.node = some id) (hl : w.Live id n) (hx : n.Keeps d) (mode : FetchMode) :
    s.Sets .fetchMode d { d with fetchMode := mode } (s.setFetchMode mode) w := by
  have hdata : s.data? w = some d := data?_eq_some.mpr ⟨id, n, hid, hl, hx⟩
  have hset : ∀ v, v.Live id n → s.Sets .fetchMode d { d with fetchMode := mode } (do
      Act.require (fun e => e) (Library.setAttr n.native .fetchMode (.bool (mode = .scrollable)))
      let d ← s.data
      Act.update (s.putData { d with fetchMode := mode })) v := fun v hlv =>
    sets_after hid hlv hx rfl fun l => by
      have hd : s.data? { v with library := l } = some d := data?_eq_some.mpr ⟨id, n, hid, hlv, hx⟩
      rw [run_bind, run_data, hd]
      rfl
  refine Ends.liveOf hid hl ?_
  split
  · refine Ends.bind (fun version v hr => ?_) fun e v hr => ?_
    · have hidle : Idle w v := (idle_serverVersion s.conn w).elim hr
      split
      · exact .inr (hidle.unset hdata _)
      · obtain ⟨hok, he, htold, hrest⟩ | ⟨herror, hd, hrest⟩ := hset v (hidle.live hl)
        · exact .inl ⟨hok, he, htold, fun other ho hne => (hrest other ho hne).trans (hidle.told? s ho)⟩
        · exact .inr ⟨herror, hd, fun other ho => (hrest other ho).trans (hidle.told? s ho)⟩
    · exact .inr (((idle_serverVersion s.conn w).elim hr).unset hdata _)
  · exact hset w hl

/-! ### What is not told -/

/-- Everything that a node does not hang on. -/
def aside (id : Nat) (w : World) : Scope where
  node i := ¬w.Below i id
  count _ := True
  counted _ _ := trivial
  text _ := True
  var _ := True
  registry := True
  creates := True

/-- The release of its resultsets leaves a statement its handle with all attributes, but for the number of rows. -/
lemma keepsAttrs_releaseResultsets {count : Nat} {v : World} (hw : Standing w) (hid : s.handle.node = some id)
    (hl : w.Live id n) (ho : n.owned = true) (hr : s.releaseResultsets.run w = (.ok count, v)) :
    KeepsAttrs id n w v := by
  have hwithin : StepsWithin (aside id w) w (s.handle.releaseChildren (fun n => n.kind = .resultset) w).2 := by
    refine StepsWithin.releaseChildren _ fun i m c hi hm hc => ?_
    obtain rfl := Option.some.inj (hid.symm.trans hi)
    obtain ⟨hlt, -⟩ := hw.forest.child hm.1 hc
    exact fun hb => absurd (hw.forest.le_of_below hb) (Nat.not_le_of_lt hlt)
  obtain ⟨-, rfl⟩ := Prod.mk.inj hr
  exact hwithin.keepsAttrs hw hl ho fun i hi (hno : ¬w.Below i id) => hno hi

/-- A preparation, be it refused, brings the array to one element and tells the native library of no setting. -/
theorem untold_prepare (hw : Standing w) (hid : s.handle.node = some id) (hl : w.Live id n) (ho : n.owned = true)
    (hx : n.Keeps d) (mode : PrepareMode) (sql : String) : Ends (s.prepare mode sql) w fun _ w' =>
      ∃ e, s.data? w' = some e ∧ e.arraySize = 1 ∧ e.fetchMode = d.fetchMode ∧
        ∀ attr, attr.IsSetting → s.told? w' attr = s.told? w attr := by
  obtain ⟨count, v, ids, hrelease, hv, -⟩ := cleared_releaseResultsets hw.forest hid hl
  have hkeeps := keepsAttrs_releaseResultsets hw hid hl ho hrelease
  have hdata : s.data? v = some d := data?_eq_some.mpr ⟨id, _, hid, hv, hx⟩
  refine Ends.liveOf hid hl (Ends.after hrelease (Ends.dataOf hdata (Ends.afterUpdate ?_)))
  rw [putData_of_live hid hv]
  have hlive : ((v.modifyNode id (Node.keeping (d.reset sql))).freeBuffers d.binds.buffers).Live id
      ((n.without ids).keeping (d.reset sql)) := hv.keeping _
  have hlib : ((v.modifyNode id (Node.keeping (d.reset sql))).freeBuffers d.binds.buffers).library = v.library := rfl
  generalize (v.modifyNode id (Node.keeping (d.reset sql))).freeBuffers d.binds.buffers = u at hlive hlib
  -- from here on the handle is the one that it was, and the native library is called once
  have hsame : ∀ {x : Option Unit} {l : Library} {attr : Attr}, Library.prepare n.native sql mode u.library = (x, l) →
      attr.IsSetting → l.attr? n.native attr = s.told? w attr := fun {x l attr} hp ha => by
    have h := Invocation.attr?_of_silent (i := .prepare n.native sql mode) (l := u.library) trivial ha.ne_rowCount
      n.native
    rw [show (Invocation.prepare n.native sql mode).run u.library = Invocation.gave (_, l) from
      congrArg Invocation.gave hp, hlib] at h
    rw [told?, Wrapper.native_of_live hid hl]
    exact h.trans (hkeeps.attrs attr ha.ne_rowCount)
  refine Ends.require (fun _ l hp => Ends.afterUpdate ?_) fun l hp => ?_
  · have hl' : World.Live { u with library := l } id ((n.without ids).keeping (d.reset sql)) := hlive
    have hput := hl'.keeping { d.reset sql with status := .ofMode mode }
    rw [putData_of_live hid hl']
    refine ⟨_, data?_eq_some.mpr ⟨id, _, hid, hput, rfl⟩, rfl, rfl, fun attr ha => ?_⟩
    exact (congrArg (Library.attr? l · attr) (Wrapper.native_of_live hid hput)).trans (hsame hp ha)
  · have hl' : World.Live { u with library := l.lastError.2 } id ((n.without ids).keeping (d.reset sql)) := hlive
    refine ⟨_, data?_eq_some.mpr ⟨id, _, hid, hl', rfl⟩, rfl, rfl, fun attr ha => ?_⟩
    have htold : l.attr? n.native attr = s.told? w attr := hsame hp ha
    exact (congrArg (Library.attr? l · attr) (Wrapper.native_of_live hid hl')).trans htold

end Statement

namespace Application
variable {a : Application} {op : Operation}

/-- An operation leaves settings in step, unless it gives a statement another text. -/
lemma Reachable.inStep_after (h : Reachable ⟨false, true⟩ a) (hp : op.Permitted ⟨false, true⟩) (hr : a.Ready op)
    (hS : op.Within S a.world) (hagain : ∀ id, S.text id → again id) (hs : World.InStep again a.world) :
    World.InStep again (op.after a).world := by
  by_cases ha : op.Aside
  · cases op with
    | newVar => exact hs.ofNodes rfl (.of_eq rfl rfl)
    | setVar => exact hs.ofNodes rfl (.of_eq rfl rfl)
    | library k =>
      cases k with
      | foreign f => cases hp
      | _ => exact hs.ofNodes rfl (.of_eq rfl rfl)
    | _ => exact ha.elim
  · exact (h.tells hp hr hS ha).within.inStep h.standing hagain hs

/-- Settings are in step whenever an application is between two operations, but for arrays of one element. -/
lemma Reachable.inStep (h : Reachable ⟨false, true⟩ a) : World.InStep (fun _ => True) a.world := by
  induction h with
  | refl =>
    refine ⟨fun a attr v _ hv => ?_, fun id n d hd => ?_⟩
    · exact absurd hv nofun
    · exact absurd hd.1.1 nofun
  | tail hrun hstep ih =>
    obtain ⟨op, hp, hr, rfl⟩ := hstep
    have hb : Reachable ⟨false, true⟩ _ := hrun
    exact hb.inStep_after hp hr ⟨Scope.wide_all, fun _ _ => trivial, fun _ _ => trivial, fun _ => trivial⟩
      (fun _ _ => trivial) ih

/-- A statement that is in step stays so until it is prepared. -/
lemma Reachable.inStep_play (h : Reachable ⟨false, true⟩ a) {ops : List Operation} (hl : Legal ⟨false, true⟩ ops a)
    (hno : ∀ op ∈ ops, ¬op.Prepares id) (hid : id < a.world.nodes.next) (hs : World.InStep (· ≠ id) a.world) :
    World.InStep (· ≠ id) (play ops a).world := by
  induction ops generalizing a with
  | nil => exact hs
  | cons op rest ih =>
    obtain ⟨hp, hr, hrest⟩ := hl
    have hwithin : op.Within { Scope.all with text := (· ≠ id) } a.world := by
      refine ⟨⟨fun _ => trivial, fun _ => trivial, trivial⟩, fun i hi he => ?_, fun i hi he => ?_, fun _ => trivial⟩
      · exact hno op List.mem_cons_self (he ▸ hi)
      · omega
    exact ih (h.next hp hr) hrest (fun op' hop' => hno op' (List.mem_cons_of_mem _ hop'))
      (Nat.lt_of_lt_of_le hid (h.grows id rfl hp hr).nodes) (h.inStep_after hp hr hwithin (fun _ hi => hi) hs)

/-- A size that fits is told as it is. -/
lemma val_wrap_of_fits {size : Nat} (h : size ≤ BindIndex.maxSize) : (Fixed.wrap .uint64 size).val = size := by
  unfold BindIndex.maxSize at h
  change (size : Int) % 2 ^ 64 = size
  omega

/-- The settings that statements and the native library keep. -/
structure SettingsLaw (a : Application) : Prop where
  /-- Whenever the native library has been told a fetch mode, it is the one that the statement has. -/
  mode : ∀ s, Statement.InStep s .fetchMode a.world
  /-- So it is with the size of the array, unless the array has one element, -/
  size : ∀ (s : Statement) d, s.data? a.world = some d → s.InStep .bindArraySize a.world ∨ d.arraySize = 1
  /-- and the word that tells a size is this size. -/
  word : ∀ (s : Statement) d, s.data? a.world = some d → (Fixed.wrap .uint64 d.arraySize).val = d.arraySize
  /-- A call that sets the size of the array sets it on both sides; if it fails, it sets nothing. -/
  resized : ∀ (s : Statement) d size, s.data? a.world = some d → s.Sets .bindArraySize d { d with
    arraySize := size, initialArraySize := if d.binds.isEmpty then size else d.initialArraySize }
    (s.setArraySize size) a.world
  /-- So it is with the fetch mode. -/
  turned : ∀ (s : Statement) d mode, s.data? a.world = some d →
    s.Sets .fetchMode d { d with fetchMode := mode } (s.setFetchMode mode) a.world
  /-- Once the sizes are the same, they stay so until the statement is prepared, whatever is done, and whether or not it
  succeeds. -/
  kept : ∀ s id ops, .statement s ∈ a.items → s.handle.node = some id → Legal ⟨false, true⟩ ops a →
    (∀ op ∈ ops, ¬op.Prepares id) → s.InStep .bindArraySize a.world → s.InStep .bindArraySize (play ops a).world
  /-- A preparation, be it refused, brings the array of the statement to one element, and the native library is told
  nothing: this is how the sizes come to differ. -/
  prepared : ∀ (s : Statement) d mode sql, s.data? a.world = some d → Ends (s.prepare mode sql) a.world fun _ w =>
    ∃ e, s.data? w = some e ∧ e.arraySize = 1 ∧ e.fetchMode = d.fetchMode ∧
      ∀ attr, attr.IsSetting → s.told? w attr = s.told? a.world attr

/-- The law of settings holds whenever an application is between two operations, and any primitive may fail at any time.
-/
theorem Reachable.settingsLaw (h : Reachable ⟨false, true⟩ a) : SettingsLaw a := by
  have hsteps := h.inStep
  have htold : ∀ {s : Statement} {w : World} {id n attr v}, s.handle.node = some id → w.Live id n →
      s.told? w attr = some v → w.library.attr? n.native attr = some v := fun {s w id n attr v} hid hl hv => by
    rwa [Statement.told?, Wrapper.native_of_live hid hl] at hv
  refine {
    mode := fun s d v hd hv => ?_
    size := fun s d hd => ?_
    word := fun s d hd => ?_
    resized := fun s d size hd => ?_
    turned := fun s d mode hd => ?_
    kept := fun s id ops hs hid hl hno hstep d v hd hv => ?_
    prepared := fun s d mode sql hd => ?_ }
  · obtain ⟨id, n, hid, hl, hx⟩ := Statement.data?_eq_some.mp hd
    exact (hsteps.data id n d ⟨hl, hx⟩).mode (htold hid hl hv)
  · by_cases hone : d.arraySize = 1
    · exact .inr hone
    · refine .inl fun e v he hv => ?_
      obtain rfl := Option.some.inj (hd.symm.trans he)
      obtain ⟨id, n, hid, hl, hx⟩ := Statement.data?_eq_some.mp hd
      exact ((hsteps.data id n d ⟨hl, hx⟩).told _ v (.inl rfl) (htold hid hl hv)).resolve_right fun h => hone h.2.2
  · obtain ⟨id, n, hid, hl, hx⟩ := Statement.data?_eq_some.mp hd
    exact val_wrap_of_fits (hsteps.data id n d ⟨hl, hx⟩).fits.1
  · obtain ⟨id, n, hid, hl, hx⟩ := Statement.data?_eq_some.mp hd
    exact Statement.sets_setArraySize hid hl hx size
  · obtain ⟨id, n, hid, hl, hx⟩ := Statement.data?_eq_some.mp hd
    exact Statement.sets_setFetchMode hid hl hx mode
  · obtain ⟨i, hi, ⟨k, hk⟩, -⟩ := h.seated rfl s hs
    obtain rfl := Option.some.inj (hid.symm.trans hi)
    have hnow : World.InStep (· ≠ id) a.world := by
      refine ⟨hsteps.unborn, fun j m e he => ?_⟩
      have hj := hsteps.data j m e he
      refine ⟨hj.owned, hj.fits, fun attr u ha hu => ?_⟩
      by_cases hne : j = id
      · subst hne
        left
        obtain rfl | rfl := ha
        · refine hstep e u (Statement.data?_eq_some.mpr ⟨j, m, hid, he⟩) ?_
          rwa [Statement.told?, Wrapper.native_of_live hid he.1]
        · exact hj.mode hu
      · exact (hj.told attr u ha hu).imp_right fun ⟨hattr, _, hone⟩ => ⟨hattr, hne, hone⟩
    have hlater := h.inStep_play hl hno (h.fit.sound.forest.table.handed id k hk) hnow
    obtain ⟨j, m, hj, hm, hx⟩ := Statement.data?_eq_some.mp hd
    obtain rfl := Option.some.inj (hid.symm.trans hj)
    exact ((hlater.data id m d ⟨hm, hx⟩).told _ v (.inl rfl) (htold hid hm hv)).resolve_right fun h => h.2.1 rfl
  · obtain ⟨id, n, hid, hl, hx⟩ := Statement.data?_eq_some.mp hd
    exact Statement.untold_prepare h.standing hid hl (hsteps.data id n d ⟨hl, hx⟩).owned hx mode sql

/-- Both settings of a statement are set, and then the native library refuses another size: both sides have the first
one. -/
theorem settingsLaw_after_refusal :
    let s : Statement := ⟨0, ⟨0, ⟨some 1⟩⟩, ⟨some 2⟩⟩
    let a := play [.createEnvironment default, .environment ⟨0, ⟨some 0⟩⟩ (.connect (.ofPassword "db" "user" "word")),
      .connection ⟨0, ⟨some 1⟩⟩ (.prepare "q"), .statement s (.setArraySize 3),
      .statement s (.setFetchMode .scrollable), .library (.failNext .setAttr (.single 24315 "illegal attribute type")),
      .statement s (.setArraySize 2)] start
    SettingsLaw a ∧ (s.data? a.world).map (fun d => (d.arraySize, d.fetchMode)) = some (3, .scrollable) ∧
      s.told? a.world .bindArraySize = some (.int .uint64 (Fixed.wrap .uint64 3)) ∧
      s.told? a.world .fetchMode = some (.bool true) := by
  refine ⟨Reachable.settingsLaw (runs_play ?_), by decide +kernel, by decide +kernel, by decide +kernel⟩
  exact ⟨trivial, by decide +kernel, trivial, by decide +kernel, trivial, by decide +kernel, trivial, by decide +kernel,
    trivial, by decide +kernel, nofun, by decide +kernel, trivial, by decide +kernel, trivial⟩

/-- The native library still has the size that was set for the earlier text: an array of three is set, another text is
prepared, and the statement has an array of one. -/
theorem preparation_leaves_array_size :
    let s : Statement := ⟨0, ⟨0, ⟨some 1⟩⟩, ⟨some 2⟩⟩
    let a := play [.createEnvironment default, .environment ⟨0, ⟨some 0⟩⟩ (.connect (.ofPassword "db" "user" "word")),
      .connection ⟨0, ⟨some 1⟩⟩ (.prepare "q"), .statement s (.setArraySize 3),
      .statement s (.prepare .prepare "q")] start
    Reachable ⟨false, true⟩ a ∧ s.handle.isNull a.world = false ∧
      (s.data? a.world).map (fun d => d.arraySize) = some 1 ∧
      s.told? a.world .bindArraySize = some (.int .uint64 (Fixed.wrap .uint64 3)) ∧
      ¬s.InStep .bindArraySize a.world := by
  intro s a
  have hsize : (s.data? a.world).map (fun d => d.arraySize) = some 1 := by decide +kernel
  have htold : s.told? a.world .bindArraySize = some (.int .uint64 (Fixed.wrap .uint64 3)) := by decide +kernel
  refine ⟨runs_play ⟨trivial, by decide +kernel, trivial, by decide +kernel, trivial, by decide +kernel, trivial,
    by decide +kernel, trivial, by decide +kernel, trivial⟩, by decide +kernel, hsize, htold, fun hstep => ?_⟩
  obtain ⟨d, hd, hone⟩ := Option.map_eq_some_iff.mp hsize
  have hsame : d.setting? .bindArraySize = some (.int .uint64 (Fixed.wrap .uint64 3)) := hstep d _ hd htold
  simp only [StatementData.setting?, hone] at hsame
  exact absurd hsame (by decide)

end Application
end DbClient
