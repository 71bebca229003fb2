import DbClient.Proofs.Application.CreationLaw
import DbClient.Proofs.Frame.Writing

/-! The law of timeouts. A span is told to the native library in whole milliseconds. They have to fit into a word of 64
bits: a span that is longer than the word allows is not told, and stops those that come after it. The native library may
be any one, and refuse any attribute that is written to it. -/
namespace DbClient
open Act World Library

namespace Duration

/-- The whole milliseconds of a span, rounded down. -/
def whole (d : Duration) : Nat := (d.seconds * 1000000000 + d.nanos) / 1000000

lemma whole_eq (d : Duration) : d.whole = d.seconds * 1000 + d.nanos / 1000000 := by
  unfold whole
  omega

/-- What is told of a span are its whole milliseconds, -/
lemma millis?_eq_some_iff {d : Duration} {n : Fixed .uint64} : d.millis? = some n ↔ n.val = d.whole := by
  rw [millis?, show (d.seconds * 1000 + d.nanos / 1000000 : Int) = d.whole by rw [whole_eq]; rfl]
  constructor
  · intro h
    unfold Fixed.ofInt? at h
    split at h
    · exact Option.some.inj h ▸ rfl
    · cases h
  · exact fun h => h ▸ Fixed.ofInt?_val n

/-- if these fit into a word. -/
lemma millis?_isSome_iff {d : Duration} : d.millis?.isSome ↔ d.whole < 2 ^ 64 := by
  have hholds : IntType.uint64.Holds d.whole ↔ d.whole < 2 ^ 64 := by
    simp only [IntType.Holds, IntType.min, IntType.max, IntType.signed, IntType.bits, IntType.size,
      Bool.false_eq_true, if_false]
    omega
  rw [← hholds, Option.isSome_iff_exists]
  constructor
  · rintro ⟨n, hn⟩
    exact millis?_eq_some_iff.mp hn ▸ n.holds
  · exact fun h => ⟨⟨d.whole, h⟩, millis?_eq_some_iff.mpr rfl⟩

/-- The longest span that fits has 18446744073709551 seconds and 615 milliseconds. -/
lemma whole_lt_iff {d : Duration} (hn : d.nanos < 1000000000) : d.whole < 2 ^ 64 ↔
    d.seconds < 18446744073709551 ∨ d.seconds = 18446744073709551 ∧ d.nanos < 616000000 := by
  rw [whole_eq]
  omega

end Duration

/-! ### What is written -/

lemma Timeouts.mem_values {t : Timeouts} {attr : Attr} {d : Duration} (h : (attr, some d) ∈ t.toList) :
    (attr, d.millis?.map (Value.int .uint64)) ∈ t.values := List.mem_filterMap.mpr ⟨_, h, rfl⟩

/-- All that is written fits just if all timeouts that are given do. -/
lemma Timeouts.all_values_isSome {t : Timeouts} : (t.values.all fun p => p.2.isSome) = true ↔
    ∀ attr d, (attr, some d) ∈ t.toList → d.whole < 2 ^ 64 := by
  simp only [List.all_eq_true, ← Duration.millis?_isSome_iff]
  constructor
  · exact fun h attr d hd => Option.isSome_map ▸ h _ (mem_values hd)
  · intro h p hp
    obtain ⟨⟨attr, limit⟩, hin, hsome⟩ := List.mem_filterMap.mp hp
    obtain ⟨d, rfl, rfl⟩ := Option.map_eq_some_iff.mp hsome
    rw [Option.isSome_map]
    exact h attr d hin

lemma Timeouts.nodup_values (t : Timeouts) : (t.values.map Prod.fst).Nodup := by
  obtain ⟨_ | _, _ | _, _ | _⟩ := t <;> simp [values, toList]

lemma ConnectParams.nodup_values (p : ConnectParams) : (p.values.map Prod.fst).Nodup := by
  obtain ⟨_, _ | _, _ | _, _ | _, _ | _⟩ := p <;> simp [values, Credentials.values, Timeouts.values, Timeouts.toList]

lemma Timeouts.mem_toList {t : Timeouts} {attr : Attr} {limit : Option Duration} : (attr, limit) ∈ t.toList ↔
    attr = .callTimeout ∧ limit = t.call ∨ attr = .sendTimeout ∧ limit = t.send ∨
      attr = .receiveTimeout ∧ limit = t.receive := by
  simp [toList]

/-- A timeout that is not given is not written. -/
lemma Timeouts.absent {t : Timeouts} {attr : Attr} (h : (attr, none) ∈ t.toList) : attr ∉ t.values.map Prod.fst := by
  obtain ⟨rfl, hnone⟩ | ⟨rfl, hnone⟩ | ⟨rfl, hnone⟩ := mem_toList.mp h <;> simp [values, toList, ← hnone]

lemma ConnectParams.absent {p : ConnectParams} {attr : Attr} (h : (attr, none) ∈ p.timeouts.toList) :
    attr ∉ p.values.map Prod.fst := by
  have hcredentials : attr ∉ Attr.dbLink :: p.credentials.values.map Prod.fst := by
    obtain ⟨rfl, -⟩ | ⟨rfl, -⟩ | ⟨rfl, -⟩ := Timeouts.mem_toList.mp h <;>
      cases p.credentials <;> simp [Credentials.values]
  rw [values, List.map_cons, List.map_append, ← List.cons_append]
  exact fun hin => (List.mem_append.mp hin).elim hcredentials (Timeouts.absent h)

/-- Each timeout that is given has been told to a handle in whole milliseconds, rounded down, and of the others nothing
has been told. -/
structure Timeouts.Told (t : Timeouts) (h : Address) (l l' : Library) : Prop where
  given : ∀ attr d, (attr, some d) ∈ t.toList → ∃ n, l'.attr? h attr = some (.int .uint64 n) ∧ n.val = d.whole
  absent : ∀ attr, (attr, none) ∈ t.toList → l'.attr? h attr = l.attr? h attr

/-- Timeouts have been told when they were among the attributes that were written. -/
lemma Library.Wrote.told {h : Address} {l l' : Library} {done : List (Attr × Value)} (hw : Wrote h done l l')
    {t : Timeouts} (hin : ∀ p ∈ t.values, p ∈ fitting done)
    (hout : ∀ attr, (attr, none) ∈ t.toList → attr ∉ (fitting done).map Prod.fst) : t.Told h l l' where
  given attr d hd := by
    obtain ⟨v, hv, hfit⟩ := mem_fitting.mp (hin _ (Timeouts.mem_values hd))
    obtain ⟨n, hn, rfl⟩ := Option.map_eq_some_iff.mp hfit
    exact ⟨n, hw.given _ _ hv, Duration.millis?_eq_some_iff.mp hn⟩
  absent attr hnone := hw.others h attr fun _ => map_fst_fitting done ▸ hout attr hnone

namespace Connection
variable {w : World} {c : Connection}

/-- How the making of a connection ends: it is made and all is written to it, an attribute is refused or does not fit
and no connection is left, or it has not come to writing. With a connection that is given up goes the callback that was
kept under its number. -/
inductive Connected (write : AttrWriter) (env : Nat) (params : ConnectParams) (w : World) :
    Except ClientError Connection → World → Prop where
  | made {c w' done} (hlive : c.handle.isNull w' = false) (hnative : c.handle.native w' = w.library.upcoming)
      (hfit : params.values = fitting done) (hw : Wrote w.library.upcoming done w.library w'.library) :
      Connected write env params w (.ok c) w'
  | refused {e l w'} (hw : Written write w.library.upcoming params.values w.library (.error e) l)
      (hgone : Restored w w' ∨ w.callback? env w.library.upcoming ≠ none ∧
        Restored (w.removeCallback env w.library.upcoming).2 w') : Connected write env params w (.error e) w'
  | notBegun {e w'} (hgone : Restored w w') : Connected write env params w (.error e) w'

lemma ends_connectWith {write : AttrWriter} (hf : write.Faithful) {env : Nat} (root : Wrapper) (params : ConnectParams)
    (hw : w.Forest) (hn : w.Numbered) (he : w.Housed env) :
    Ends (connectWith (fun c => c.writeAll write params.values) env root params.dblink) w
      (Connected write env params w) := by
  unfold Ends
  obtain ⟨e, he', hgone⟩ | ⟨node, v, hbegun, hset⟩ :=
    connectWith_cases (fun c => c.writeAll write params.values) root params.dblink hw hn he
  · rw [he']
    exact .notBegun hgone
  have hlive := hbegun.adds.live hw hbegun.leaf.toFits
  have hwritten := ends_writeAll (c := ⟨env, ⟨some w.nodes.next⟩⟩) hf rfl hlive params.nodup_values hbegun.attrs
  rw [hbegun.native_eq] at hwritten
  rcases hset with ⟨u, notice, hrun, hr, hw'⟩ | ⟨e, u, hrun, hr, hw'⟩
  · have hsame : AtLibrary v u := (atLibrary_writeAll write _ _).rel hrun
    have hstill : (u.note notice).Live w.nodes.next node := by
      rw [hsame]
      exact hlive
    rw [hr, hw']
    cases hwritten.elim hrun with
    | all hfit hw =>
      exact .made (Wrapper.isNull_eq_false.mpr ⟨_, _, rfl, hstill⟩)
        ((Wrapper.native_of_live rfl hstill).trans hbegun.native_eq) hfit hw
  · rw [hr, hw']
    exact .refused (hwritten.elim hrun)
      (hbegun.drop hw ((quiet_writeAll hf _ _).rel hrun) ((atLibrary_writeAll write _ _).rel hrun))

/-- Nothing is refused by the scripted library unless a failure is injected. -/
lemma ends_writeAll_free {id : Nat} {n : Node} (hid : c.handle.node = some id) (hl : w.Live id n)
    (ha : w.library.isAlive n.native = true) (hf : w.library.failures.get? .setAttr = none)
    (ps : List (Attr × Option Value)) : Ends (c.writeAll Library.setAttr ps) w fun r _ =>
      r = if ps.all (fun p => p.2.isSome) then .ok () else .error .overflow := by
  induction ps generalizing w with
  | nil => rfl
  | cons p rest ih =>
    obtain ⟨attr, _ | v⟩ := p
    · rfl
    obtain ⟨l, hc, ha', hf'⟩ := Library.setAttr_free attr v hf ha
    refine Ends.liveOf hid hl (Ends.require (fun x m hm => ?_) fun m hm => absurd (hc.symm.trans hm) nofun)
    obtain ⟨-, rfl⟩ := Prod.mk.inj (hc.symm.trans hm)
    exact ih (w := { w with library := l }) hl ha' hf'

end Connection

namespace Application
variable {a : Application} {write : AttrWriter}

/-- How timeouts come to a native library with any way of writing attributes, and to the scripted one. -/
structure TimeoutLaw (write : AttrWriter) (a : Application) : Prop where
  /-- A span is told as its whole milliseconds, rounded down, -/
  rounded : ∀ (d : Duration) n, d.millis? = some n ↔ n.val = d.whole
  /-- just if these fit into a word, -/
  fits : ∀ d : Duration, d.millis?.isSome ↔ d.whole < 2 ^ 64
  /-- which they do up to 18446744073709551 seconds and 615 milliseconds. -/
  longest : ∀ d : Duration, d.nanos < 1000000000 → (d.whole < 2 ^ 64 ↔
    d.seconds < 18446744073709551 ∨ d.seconds = 18446744073709551 ∧ d.nanos < 616000000)
  /-- Timeouts are set, and connections made, by writing attributes in order. -/
  setTimeouts : ∀ (c : Connection) t, c.setTimeouts t = c.writeAll Library.setAttr t.values
  connect : ∀ (e : Environment) params, e.connect params = Connection.connectWith
    (fun c => c.writeAll Library.setAttr params.values) e.env e.root params.dblink
  /-- Of the timeouts that are given, exactly those are written that come before the first that is refused or does not
  fit. The error of one that is refused is that of the library, and tells the handle of the connection. -/
  written : ∀ (c : Connection) (t : Timeouts) r w, c.handle.isNull a.world = false →
    (c.writeAll write t.values).run a.world = (r, w) →
    Written write (c.handle.native a.world) t.values a.world.library r w.library ∧ AtLibrary a.world w
  /-- If all goes well, those that are given are told to the library, and those that are absent stay as they are. -/
  told : ∀ (c : Connection) (t : Timeouts) w, c.handle.isNull a.world = false →
    (c.writeAll write t.values).run a.world = (.ok (), w) →
    t.Told (c.handle.native a.world) a.world.library w.library
  /-- None is refused by the scripted library unless a failure is injected or the handle is not alive. Then all goes
  well if all that are given fit, -/
  granted : ∀ (c : Connection) t, c.handle.isNull a.world = false →
    a.world.library.isAlive (c.handle.native a.world) = true → a.world.library.failures.get? .setAttr = none →
    (∀ attr d, (attr, some d) ∈ t.toList → d.whole < 2 ^ 64) → ((c.setTimeouts t).run a.world).1 = .ok ()
  /-- and one that does not stops the program. -/
  overflows : ∀ (c : Connection) t attr d, c.handle.isNull a.world = false →
    a.world.library.isAlive (c.handle.native a.world) = true → a.world.library.failures.get? .setAttr = none →
    (attr, some d) ∈ t.toList → 2 ^ 64 ≤ d.whole → ((c.setTimeouts t).run a.world).1 = .error .overflow
  /-- A connection is made with all that is written to it, or there is none afterwards. -/
  connected : ∀ (e : Environment) (params : ConnectParams), a.Holds (.environment e) → ∀ r w,
    (Connection.connectWith (fun c => c.writeAll write params.values) e.env e.root params.dblink).run a.world = (r, w) →
    Connection.Connected write e.env params a.world r w
  /-- A connection that is made has been told its timeouts. -/
  toldToNew : ∀ (e : Environment) (params : ConnectParams), a.Holds (.environment e) → ∀ c w,
    (Connection.connectWith (fun c => c.writeAll write params.values) e.env e.root params.dblink).run a.world =
      (.ok c, w) → params.timeouts.Told (c.handle.native w) a.world.library w.library

/-- The scripted library grants timeouts that fit. -/
lemma run_setTimeouts {c : Connection} {t : Timeouts} (hc : c.handle.isNull a.world = false)
    (ha : a.world.library.isAlive (c.handle.native a.world) = true)
    (hfree : a.world.library.failures.get? .setAttr = none) : ((c.setTimeouts t).run a.world).1 =
      if t.values.all (fun p => p.2.isSome) then .ok () else .error .overflow := by
  obtain ⟨id, n, hid, hl⟩ := Wrapper.isNull_eq_false.mp hc
  rw [Wrapper.native_of_live hid hl] at ha
  rw [Connection.setTimeouts_eq]
  exact Connection.ends_writeAll_free hid hl ha hfree t.values

lemma Borrowed.connected (h : Borrowed a) (hf : write.Faithful) {e : Environment} (he : a.Holds (.environment e))
    (params : ConnectParams) : Ends (Connection.connectWith (fun c => c.writeAll write params.values) e.env e.root
      params.dblink) a.world (Connection.Connected write e.env params a.world) :=
  have hfit := h.reachable.fit
  Connection.ends_connectWith hf e.root params hfit.sound.forest h.numbered (hfit.housed_of_holds he)

/-- The law of timeouts holds whenever an application that borrows is between two operations. -/
theorem Borrowed.timeoutLaw (h : Borrowed a) (hf : write.Faithful) : TimeoutLaw write a where
  rounded _ _ := Duration.millis?_eq_some_iff
  fits _ := Duration.millis?_isSome_iff
  longest _ := Duration.whole_lt_iff
  setTimeouts := Connection.setTimeouts_eq
  connect e params := Connection.connect_eq e.env e.root params
  written c t r w hc hr := by
    obtain ⟨id, n, hid, hl⟩ := Wrapper.isNull_eq_false.mp hc
    rw [Wrapper.native_of_live hid hl]
    exact ⟨(Connection.ends_writeAll hf hid hl t.nodup_values rfl).elim hr,
      (Connection.atLibrary_writeAll write c t.values).rel hr⟩
  told c t w hc hr := by
    obtain ⟨id, n, hid, hl⟩ := Wrapper.isNull_eq_false.mp hc
    rw [Wrapper.native_of_live hid hl]
    cases (Connection.ends_writeAll hf hid hl t.nodup_values rfl).elim hr with
    | all hfit hw => exact hw.told (fun _ hp => hfit ▸ hp) fun _ hnone => hfit ▸ Timeouts.absent hnone
  granted c t hc ha hfree hfit := by
    rw [run_setTimeouts hc ha hfree, if_pos]
    exact Timeouts.all_values_isSome.mpr hfit
  overflows c t attr d hc ha hfree hd hover := by
    rw [run_setTimeouts hc ha hfree, if_neg]
    exact fun hall => absurd (Timeouts.all_values_isSome.mp hall attr d hd) (Nat.not_lt_of_le hover)
  connected e params he r w hr := (h.connected hf he params).elim hr
  toldToNew e params he c w hr := by
    cases (h.connected hf he params).elim hr with
    | made _ hnative hfit hw =>
      refine hnative ▸ hw.told (fun p hp => ?_) fun _ hnone => hfit ▸ ConnectParams.absent hnone
      exact hfit ▸ List.mem_cons_of_mem _ (List.mem_append_right _ hp)

/-- A connection is made with a timeout of 1500 milliseconds for calls and one of three seconds for what is received. -/
theorem timeoutLaw_of_new_connection :
    let c : Connection := ⟨0, ⟨some 1⟩⟩
    let t : Timeouts := ⟨some (.ofMillis 1500), none, some ⟨3, 0⟩⟩
    let a := play [.createEnvironment default,
      .environment ⟨0, ⟨some 0⟩⟩ (.connect ⟨"db", .password "user" "word", t⟩)] start
    TimeoutLaw Library.setAttr a ∧ c.handle.isNull a.world = false ∧
      a.world.library.attr? (c.handle.native a.world) .callTimeout = some (.int .uint64 (.wrap .uint64 1500)) ∧
      a.world.library.attr? (c.handle.native a.world) .sendTimeout = none ∧
      a.world.library.attr? (c.handle.native a.world) .receiveTimeout = some (.int .uint64 (.wrap .uint64 3000)) := by
  refine ⟨Borrowed.timeoutLaw (Borrowed.start.play ?_ ?_) Library.faithful_setAttr, by decide +kernel,
    by decide +kernel, by decide +kernel, by decide +kernel⟩
  · simp [Operation.Borrows, Operation.Permitted]
  · exact ⟨trivial, by decide +kernel, trivial, by decide +kernel, trivial⟩

/-- A library that knows no timeout for what is received is told the one for calls all the same. -/
example :
    let c : Connection := ⟨0, ⟨some 1⟩⟩
    let t : Timeouts := ⟨some (.ofMillis 1500), none, some ⟨3, 0⟩⟩
    let write : AttrWriter := fun h attr v l =>
      if attr = .receiveTimeout then fail (.single 24315 "illegal attribute type") l else Library.setAttr h attr v l
    let a := play [.createEnvironment default,
      .environment ⟨0, ⟨some 0⟩⟩ (.connect (.ofPassword "db" "user" "word"))] start
    let outcome := (c.writeAll write t.values).run a.world
    outcome.1 = .error (.native (.single 24315 "illegal attribute type") ⟨none, none, none, some 0x1020⟩) ∧
      outcome.2.library.attr? ⟨0x1020⟩ .callTimeout = some (.int .uint64 (.wrap .uint64 1500)) ∧
      outcome.2.library.attr? ⟨0x1020⟩ .receiveTimeout = none := by decide +kernel

/-- A timeout whose whole milliseconds do not fit into a word stops the program, though its seconds do, and though no
attribute would be refused. Nothing is told. -/
theorem long_timeout_overflows :
    let c : Connection := ⟨0, ⟨some 1⟩⟩
    let d : Duration := ⟨18446744073709552, 0⟩
    let a := play [.createEnvironment default,
      .environment ⟨0, ⟨some 0⟩⟩ (.connect (.ofPassword "db" "user" "word"))] start
    let outcome := (c.setTimeouts ⟨some d, none, none⟩).run a.world
    Borrowed a ∧ a.Holds (.connection c) ∧ c.handle.isNull a.world = false ∧ d.seconds < 2 ^ 64 ∧
      d.nanos < 1000000000 ∧ a.world.library.failures.get? .setAttr = none ∧ outcome.1 = .error .overflow ∧
      d.whole = 18446744073709552000 ∧
      outcome.2.library.attr? (c.handle.native a.world) .callTimeout = none := by
  refine ⟨Borrowed.start.play ?_ ?_, by decide +kernel, by decide +kernel, by decide, by decide, by decide +kernel,
    by decide +kernel, by decide +kernel, by decide +kernel⟩
  · simp [Operation.Borrows, Operation.Permitted]
  · exact ⟨trivial, by decide +kernel, trivial, by decide +kernel, trivial⟩

end Application
end DbClient
