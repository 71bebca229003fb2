import DbClient.Proofs.Application.SettingsLaw
import DbClient.Proofs.Version.Banner

/-! The law of the version gate in any application. The server reports its version in a banner, and cursors that scroll
are refused below version 9, whatever state the statement is in; a refusal leaves the fetch mode as it is, in the
statement and in the native library. -/
namespace DbClient
open Act World

variable {w w' : World} {id : Nat} {n : Node} {c : Connection} {s : Statement} {d : StatementData} {v : Version}

namespace Version

lemma go_ne_lt {ns : List Int} (h : ∀ n ∈ ns, 0 ≤ n) (k : Nat) : compare.go ns (List.replicate k 0) ≠ .lt := by
  induction ns generalizing k with
  | nil => nofun
  | cons n rest ih =>
    obtain ⟨hn, hrest⟩ := List.forall_mem_cons.mp h
    cases k with
    | zero => nofun
    | succ k =>
      rw [List.replicate_succ, compare.go, if_neg (Int.not_lt.mpr hn)]
      split
      · nofun
      · exact ih hrest k

/-- A version without negative parts is below a major one exactly when its own major number is. -/
lemma compare_major (h : ∀ n ∈ v.parts, 0 ≤ n) (k : Int) : v.compare (.ofParts [k]) = .lt ↔ v.major < k := by
  have hrest := go_ne_lt (List.forall_mem_cons.mp h).2 4
  change (if v.major < k then Ordering.lt else if k < v.major then .gt
    else compare.go [v.minor, v.update, v.patch, v.portUpdate] (List.replicate 4 0)) = .lt ↔ v.major < k
  by_cases hlt : v.major < k
  · rw [if_pos hlt]
    exact iff_of_true rfl hlt
  · rw [if_neg hlt]
    refine iff_of_false ?_ hlt
    split
    · nofun
    · exact hrest

end Version

/-- The server reports a version: it is in the banner of the server, its parts are in the promised range, and no failure
is injected into the question for an attribute. -/
structure Library.Reports (l : Library) (v : Version) : Prop where
  banner : l.serverVersion = v.text
  parts : ∀ n ∈ v.parts, Version.Promised n
  unharmed : l.failures.get? .getAttr = none

namespace Library
variable {l : Library} {h : Address}

/-- The library after a primitive was asked without a failure, but for what the primitive itself did. -/
def asked (op : Primitive) (h : Address) (l : Library) : Library := { l.called (some op) h with error := none }

lemma getAttr_serverVersion (hf : l.failures.get? .getAttr = none) (ha : l.isAlive h = true) :
    getAttr h .serverVersion l = (some (.string l.banner), l.asked .getAttr h) := by
  have halive : isAlive { l.called (some .getAttr) h with error := none } h = true := ha
  rw [getAttr, run_free hf, halive]
  rfl

lemma Reports.fits (h : l.Reports v) : v.Fits := fun n hn => (h.parts n hn).holds

lemma Reports.ofBanner_eq (h : l.Reports v) : Version.ofBanner l.banner = .ok v :=
  Version.ofBanner_of_serverVersion h.fits h.banner

end Library

namespace Connection

/-- What a live connection tells of the version of a server with a banner. -/
def versionOf (banner : String) : Except ClientError Version :=
  match Version.ofBanner banner with
  | .ok v => .ok v
  | .error _ => .error (.conversion .string)

lemma ends_serverVersion (hid : c.handle.node = some id) (hl : w.Live id n) (ha : w.library.isAlive n.native = true)
    (hf : w.library.failures.get? .getAttr = none) : Ends c.serverVersion w fun r w' =>
      r = versionOf w.library.banner ∧ w' = { w with library := w.library.asked .getAttr n.native } := by
  have hask := Library.getAttr_serverVersion hf ha
  refine Ends.liveOf hid hl (Ends.require (fun x l hc => ?_) fun l hc => absurd (hask.symm.trans hc) nofun)
  obtain ⟨hx, rfl⟩ := Prod.mk.inj (hask.symm.trans hc)
  obtain rfl := Option.some.inj hx
  have hhost : (Value.string w.library.banner).toHost? .string = some w.library.banner := rfl
  rw [hhost, versionOf]
  dsimp only
  cases Version.ofBanner w.library.banner <;> exact ⟨rfl, rfl⟩

end Connection

namespace Statement

/-- A statement lives below its connection, so this lives, too. -/
lemma Placed.connected (hs : s.Placed w) (hf : w.Forest) (hid : s.handle.node = some id) (hl : w.Live id n) :
    ∃ p m, s.conn.handle.node = some p ∧ w.Live p m := by
  obtain ⟨hsome, hconn⟩ := hs.2.live hid hl
  obtain ⟨p, hp⟩ := Option.isSome_iff_exists.mp hsome
  obtain ⟨m, hm, -⟩ := hf.parent_live hl.1 hp
  exact ⟨p, m, hconn.symm.trans hp, hm⟩

/-- A cursor that scrolls is refused for the version of the server exactly when that is below 9. -/
lemma ends_gate (hid : s.handle.node = some id) (hl : w.Live id n) (hv : ∀ n ∈ v.parts, 0 ≤ n)
    (hversion : Ends s.conn.serverVersion w fun r _ => r = .ok v) : Ends (s.setFetchMode .scrollable) w fun r _ =>
      ∀ feature version, r = .error (.unsupported feature version) ↔
        feature = "scrollable cursor" ∧ version = v ∧ v.major < 9 := by
  have hbelow := v.compare_major hv 9
  refine Ends.liveOf hid hl ?_
  rw [if_pos rfl]
  refine Ends.follow (Q := fun _ => True) ⟨hversion, trivial⟩ fun u _ => ?_
  split
  · rename_i hlt
    intro feature version
    change (.error (.unsupported "scrollable cursor" v) : Except ClientError Unit) = _ ↔ _
    rw [Except.error.injEq, ClientError.unsupported.injEq]
    exact ⟨fun ⟨h1, h2⟩ => ⟨h1.symm, h2.symm, hbelow.mp hlt⟩, fun ⟨h1, h2, _⟩ => ⟨h1.symm, h2.symm⟩⟩
  · rename_i hge
    have hno : ∀ {r : Except ClientError Unit}, (∀ feature version, r ≠ .error (.unsupported feature version)) →
        ∀ feature version, r = .error (.unsupported feature version) ↔
          feature = "scrollable cursor" ∧ version = v ∧ v.major < 9 := fun hr feature version =>
      iff_of_false (hr feature version) fun h => hge (hbelow.mpr h.2.2)
    refine Ends.require (fun _ l _ => Ends.data (fun d _ => hno nofun) fun _ => hno nofun) fun l _ => hno nofun

/-- The fetch mode is set, if the version of the server allows it and nothing fails. -/
lemma ends_grant {mode : FetchMode} (hid : s.handle.node = some id) (hl : w.Live id n) (hx : n.Keeps d)
    (ha : w.library.isAlive n.native = true) (hf : w.library.failures.get? .setAttr = none)
    (hversion : mode = .scrollable → 9 ≤ v.major ∧ (∀ n ∈ v.parts, 0 ≤ n) ∧ ∃ h,
      Ends s.conn.serverVersion w fun r w' => r = .ok v ∧ w' = { w with library := w.library.asked .getAttr h }) :
    Ends (s.setFetchMode mode) w fun r _ => r = .ok () := by
  have hset : ∀ l : Library, l.isAlive n.native = true → l.failures.get? .setAttr = none → Ends (do
      Act.require (fun e => e) (Library.setAttr n.native .fetchMode (.bool (mode = .scrollable)))
      let d ← s.data
      Act.update (s.putData { d with fetchMode := mode })) { w with library := l } fun r _ => r = .ok () :=
    fun l ha hf => by
      obtain ⟨l', hl', -⟩ := Library.setAttr_free .fetchMode (.bool (mode = .scrollable)) hf ha
      refine Ends.require (fun _ m _ => ?_) fun m hc => absurd (hl'.symm.trans hc) nofun
      exact Ends.dataOf (data?_eq_some.mpr ⟨id, n, hid, hl, hx⟩) rfl
  refine Ends.liveOf hid hl ?_
  split
  · rename_i hmode
    obtain ⟨hmajor, hv, h, hends⟩ := hversion hmode
    refine Ends.follow hends fun u hu => ?_
    rw [if_neg fun hlt => absurd ((v.compare_major hv 9).mp hlt) (Int.not_lt.mpr hmajor), hu]
    exact hset _ ha hf
  · exact hset _ ha hf

/-- Whatever else fails than the access to the data of a statement, the fetch mode stays as it is. -/
lemma ends_kept (hid : s.handle.node = some id) (hl : w.Live id n) (mode : FetchMode) :
    Ends (s.setFetchMode mode) w fun r w' => ∀ x, r = .error x →
      (x = .nullHandle .statement ∧ s.data? w = none) ∨ Idle w w' := by
  have hset : ∀ v, Idle w v → Ends (do
      Act.require (fun e => e) (Library.setAttr n.native .fetchMode (.bool (mode = .scrollable)))
      let d ← s.data
      Act.update (s.putData { d with fetchMode := mode })) v fun r w' => ∀ x, r = .error x →
        (x = .nullHandle .statement ∧ s.data? w = none) ∨ Idle w w' := fun v hv => by
    refine Ends.require (fun _ l _ => Ends.data (fun d _ => nofun) fun hnone x hx => ?_) fun l hc x _ => ?_
    · exact .inl ⟨(Except.error.inj hx).symm, (hv.data? s).symm.trans hnone⟩
    · exact .inr (hv.trans (Idle.refused hc))
  refine Ends.liveOf hid hl ?_
  split
  · refine Ends.bind (fun version v hr => ?_) fun e v hr x _ => ?_
    · have hidle : Idle w v := (idle_serverVersion s.conn w).elim hr
      split
      · exact fun x _ => .inr hidle
      · exact hset v hidle
    · exact .inr ((idle_serverVersion s.conn w).elim hr)
  · exact hset w ⟨rfl, .of_eq rfl rfl⟩

end Statement

namespace Application
variable {a : Application}

/-- How the version of the server decides on the fetch mode of a statement. -/
structure VersionGateLaw (a : Application) : Prop where
  /-- What is found in a banner is the version of its first word that stands for one. -/
  banners : ∀ banner, Version.BannerLaw banner
  /-- A live connection tells what is found in the banner of its server, unless a failure is injected. -/
  told : ∀ c : Connection, c.handle.isNull a.world = false → a.world.library.failures.get? .getAttr = none →
    (c.serverVersion.run a.world).1 = Connection.versionOf a.world.library.banner
  /-- If the server reports a version, this is the one that is told. -/
  reported : ∀ (c : Connection) v, c.handle.isNull a.world = false → a.world.library.Reports v →
    (c.serverVersion.run a.world).1 = .ok v
  /-- A live statement has a live connection. -/
  connected : ∀ s, .statement s ∈ a.items → s.handle.isNull a.world = false → s.conn.handle.isNull a.world = false
  /-- A cursor that scrolls is not supported exactly when the version that the server reports is below 9, and it is the
  version that the error tells. -/
  gate : ∀ s v, .statement s ∈ a.items → s.handle.isNull a.world = false → a.world.library.Reports v →
    ∀ feature version, ((s.setFetchMode .scrollable).run a.world).1 = .error (.unsupported feature version) ↔
      feature = "scrollable cursor" ∧ version = v ∧ v.major < 9
  /-- A call that sets the fetch mode sets it in the statement and in the native library; if it fails, for whatever
  reason, it sets nothing. -/
  turned : ∀ (s : Statement) d mode, s.data? a.world = some d →
    s.Sets .fetchMode d { d with fetchMode := mode } (s.setFetchMode mode) a.world
  /-- Also if the data of a live statement is not in place, a call that fails sets nothing, unless it fails because of
  that. -/
  kept : ∀ (s : Statement) mode x w, s.handle.isNull a.world = false →
    (s.setFetchMode mode).run a.world = (.error x, w) →
    (x = .nullHandle .statement ∧ s.data? a.world = none) ∨ s.data? w = s.data? a.world ∧
      ∀ attr, attr.IsSetting → s.told? w attr = s.told? a.world attr
  /-- The call succeeds if no failure is injected and, for cursors that scroll, the server reports version 9 or a later
  one. -/
  granted : ∀ s d mode, .statement s ∈ a.items → s.data? a.world = some d →
    a.world.library.failures.get? .setAttr = none →
    (mode = .scrollable → ∃ v, a.world.library.Reports v ∧ 9 ≤ v.major) →
    ((s.setFetchMode mode).run a.world).1 = .ok ()

/-- The version of a live connection is what is found in the banner. -/
lemma Reachable.ends_serverVersion (h : Reachable ⟨false, true⟩ a) (hid : c.handle.node = some id)
    (hl : a.world.Live id n) (hf : a.world.library.failures.get? .getAttr = none) :
    Ends c.serverVersion a.world fun r w => r = Connection.versionOf a.world.library.banner ∧
      w = { a.world with library := a.world.library.asked .getAttr n.native } :=
  Connection.ends_serverVersion hid hl ((h.owns rfl).alive hl) hf

lemma Reachable.ends_reported (h : Reachable ⟨false, true⟩ a) (hid : c.handle.node = some id) (hl : a.world.Live id n)
    (hr : a.world.library.Reports v) : Ends c.serverVersion a.world fun r w => r = .ok v ∧
      w = { a.world with library := a.world.library.asked .getAttr n.native } := by
  have hends := h.ends_serverVersion hid hl hr.unharmed
  rwa [Connection.versionOf, hr.ofBanner_eq] at hends

lemma Reachable.connected (h : Reachable ⟨false, true⟩ a) (hs : .statement s ∈ a.items)
    (hid : s.handle.node = some id) (hl : a.world.Live id n) :
    ∃ p m, s.conn.handle.node = some p ∧ a.world.Live p m :=
  Statement.Placed.connected (h.placed _ hs) h.standing.forest hid hl

/-- The law of the version gate holds whenever an application is between two operations, whatever is made to fail. -/
theorem Reachable.versionGateLaw (h : Reachable ⟨false, true⟩ a) : VersionGateLaw a where
  banners := Version.bannerLaw
  told c hc hf := by
    obtain ⟨id, n, hid, hl⟩ := Wrapper.isNull_eq_false.mp hc
    exact (h.ends_serverVersion hid hl hf).1
  reported c v hc hr := by
    obtain ⟨id, n, hid, hl⟩ := Wrapper.isNull_eq_false.mp hc
    exact (h.ends_reported hid hl hr).1
  connected s hs hnull := by
    obtain ⟨id, n, hid, hl⟩ := Wrapper.isNull_eq_false.mp hnull
    exact Wrapper.isNull_eq_false.mpr (h.connected hs hid hl)
  gate s v hs hnull hr := by
    obtain ⟨id, n, hid, hl⟩ := Wrapper.isNull_eq_false.mp hnull
    obtain ⟨p, m, hp, hm⟩ := h.connected hs hid hl
    exact Statement.ends_gate hid hl (fun n hn => (hr.parts n hn).1) (h.ends_reported hp hm hr).1
  turned s d mode hd := by
    obtain ⟨id, n, hid, hl, hx⟩ := Statement.data?_eq_some.mp hd
    exact Statement.sets_setFetchMode hid hl hx mode
  kept s mode x w hnull hr := by
    obtain ⟨id, n, hid, hl⟩ := Wrapper.isNull_eq_false.mp hnull
    exact ((Statement.ends_kept hid hl mode).elim hr x rfl).imp_right fun hidle =>
      ⟨hidle.data? s, fun _ ha => hidle.told? s ha⟩
  granted s d mode hs hd hf hmode := by
    obtain ⟨id, n, hid, hl, hx⟩ := Statement.data?_eq_some.mp hd
    obtain ⟨p, m, hp, hm⟩ := h.connected hs hid hl
    have halive := (h.owns rfl).alive hl
    cases mode with
    | forwardOnly => exact Statement.ends_grant (v := default) hid hl hx halive hf nofun
    | scrollable =>
      obtain ⟨v, hr, hmajor⟩ := hmode rfl
      exact Statement.ends_grant hid hl hx halive hf fun _ =>
        ⟨hmajor, fun n hn => (hr.parts n hn).1, m.native, h.ends_reported hp hm hr⟩

/-- The server goes back to a version below 9 after a cursor that scrolls has been asked for: asking for it once more is
refused, and both sides keep the mode of the first time. -/
theorem versionGateLaw_below_nine :
    let s : Statement := ⟨0, ⟨0, ⟨some 1⟩⟩, ⟨some 2⟩⟩
    let v : Version := ⟨8, 1, 7, 0, 0⟩
    let a := play [.createEnvironment default, .environment ⟨0, ⟨some 0⟩⟩ (.connect (.ofPassword "db" "user" "word")),
      .connection ⟨0, ⟨some 1⟩⟩ (.prepare "q"), .statement s (.setFetchMode .scrollable),
      .library (.setServerVersion v.text)] start
    let w := ((s.setFetchMode .scrollable).run a.world).2
    VersionGateLaw a ∧ ((s.setFetchMode .scrollable).run a.world).1 = .error (.unsupported "scrollable cursor" v) ∧
      (s.data? w).map (fun d => d.fetchMode) = some .scrollable ∧ s.told? w .fetchMode = some (.bool true) := by
  intro s v a w
  have hlaw : VersionGateLaw a := Reachable.versionGateLaw (runs_play ⟨trivial, by decide +kernel, trivial,
    by decide +kernel, trivial, by decide +kernel, trivial, by decide +kernel, trivial, by decide +kernel, trivial⟩)
  have hreports : a.world.library.Reports v := ⟨by decide +kernel, by decide, by decide +kernel⟩
  refine ⟨hlaw, ?_, by decide +kernel, by decide +kernel⟩
  exact (hlaw.gate s v (by decide +kernel) (by decide +kernel) hreports _ _).mpr ⟨rfl, rfl, by decide⟩

end Application
end DbClient
