import DbClient.Proofs.Application.OwnershipLaw
import DbClient.Proofs.Bindings.Moves

/-! Agreement of the variables between the operations of any application that leaves the wrapping of handles to
the client: what the native library knows of a statement that has been prepared is what the statement holds,
whatever has failed before. -/
namespace DbClient
namespace Application
open World Library Act
variable {t : Terms} {a : Application}

/-- In the world before the first operation nothing is bound. -/
lemma bindings_start : Bindings start.world where
  memory := Table.lawful_empty
  stocked := by simp [start, World.fresh, HasData, Live]
  apart := by simp [start, World.fresh, HasData, Live]
  agree := by simp [start, World.fresh, HasData, Live]

theorem Reachable.bindings (ht : t.foreign = false) (h : Reachable t a) : Bindings a.world :=
  Path.bindings ht (Runs.path h fit_start) fit_start.sound (owns_start t) bindings_start

/-- The buffer of an object is there in full length. -/
lemma there_of_stocked {h : BindsHolder} {m : Memory} (hs : h.Stocked m) {o : BindObject} (ho : o ∈ h.objects) :
    ∃ bytes, m.get? o.buffer = some bytes ∧ bytes.length = o.elemSize * o.elemCount :=
  Option.map_eq_some_iff.mp (hs.there o ho)

/-- No buffer is bound whose object is gone. -/
structure BindingLaw (w : World) : Prop where
  /-- The native library has the text of a live statement that has been prepared, -/
  text : ∀ id n d, w.Live id n → n.Keeps d → Status.prepared.rank ≤ d.status.rank →
    ∃ sql mode, w.library.prepared? n.native = some (sql, mode) ∧ d.sql = some sql
  /-- and its table has one entry for each object of the statement, -/
  names : ∀ id n d st, w.Live id n → n.Keeps d → Status.prepared.rank ≤ d.status.rank →
    w.library.stmts.get? n.native = some st → st.binds.keys.Perm d.binds.names ∧ d.binds.names.Nodup
  /-- which describes the object and its buffer. -/
  entry : ∀ id n d, w.Live id n → n.Keeps d → Status.prepared.rank ≤ d.status.rank → ∀ o ∈ d.binds.objects,
    ∃ b, w.library.bound? n.native o.name = some b ∧ b.ty = o.ty ∧ b.elemSize = o.elemSize ∧
      b.elemCount = o.elemCount ∧ b.tableLength = o.tableLength ∧ b.direction = o.direction ∧ b.buffer = o.buffer
  /-- The buffer of an object is there in full length, -/
  there : ∀ id n d, w.Live id n → n.Keeps d → ∀ o ∈ d.binds.objects,
    ∃ bytes, w.memory.get? o.buffer = some bytes ∧ bytes.length = o.elemSize * o.elemCount
  /-- and no other object has it. -/
  own : ∀ i j n m d e, w.Live i n → w.Live j m → n.Keeps d → m.Keeps e → ∀ o ∈ d.binds.objects,
    ∀ p ∈ e.binds.objects, o.buffer = p.buffer → i = j ∧ o = p
  /-- When a statement is about to be executed, it has been prepared, and what is bound to it are the buffers of
  its objects, all there in full length. -/
  loaded : ∀ (s : Statement) stmt d w', s.load.run w = (.ok (stmt, d), w') →
    (∃ id n, s.handle.node = some id ∧ w'.Live id n ∧ n.native = stmt ∧ n.Keeps d ∧
      Status.prepared.rank ≤ d.status.rank) ∧
    ∀ name b, w'.library.bound? stmt name = some b → ∃ o ∈ d.binds.objects, o.name = name ∧ o.buffer = b.buffer ∧
      ∃ bytes, w'.memory.get? b.buffer = some bytes ∧ bytes.length = b.elemSize * b.elemCount
  /-- The execution leaves all other buffers as they are. -/
  writes : ∀ (s : Statement) stmt d w' iters results memory l, s.load.run w = (.ok (stmt, d), w') →
    Library.execute stmt iters w'.memory w'.library = (some (results, memory), l) →
    ∀ buffer, buffer ∉ d.binds.buffers → memory.get? buffer = w'.memory.get? buffer

/-- A statement that is about to be executed has been prepared, in a world where variables are in order. -/
lemma Reachable.loaded (ht : t.foreign = false) (h : Reachable t a) {s : Statement} {stmt : Address}
    {d : StatementData} {w : World} (hr : s.load.run a.world = (.ok (stmt, d), w)) : Bindings w ∧
    ∃ id n, s.handle.node = some id ∧ w.Live id n ∧ n.native = stmt ∧ n.Keeps d ∧
      Status.prepared.rank ≤ d.status.rank := by
  have hpath : Path t (a.held, a.world) (a.held, w) := Does.rel s.course_load hr h.fit.sound
  obtain ⟨id, n, hid, hl, he, hx, -, hrank⟩ := Statement.load_spec h.fit.sound hr
  exact ⟨Path.bindings ht hpath h.fit.sound (h.owns ht) (h.bindings ht), id, n, hid, hl, he, hx, hrank⟩

/-- What is bound to it was made for its objects. -/
lemma Reachable.bound_loaded (ht : t.foreign = false) (h : Reachable t a) {s : Statement} {stmt : Address}
    {d : StatementData} {w : World} (hr : s.load.run a.world = (.ok (stmt, d), w)) {name : String} {b : Bound}
    (hb : w.library.bound? stmt name = some b) :
    ∃ o ∈ d.binds.objects, o.name = name ∧ b.frame = (Bound.ofDesc o.desc).frame := by
  obtain ⟨hw, id, n, -, hl, rfl, hx, hrank⟩ := h.loaded ht hr
  obtain ⟨st, hst, hag⟩ := hw.agree id n d ⟨hl, hx⟩ hrank
  rw [bound?, hst, Option.bind_some] at hb
  exact hag.object hb

/-- The law of agreement holds whenever an application is between two operations, and any primitive may fail at
any time. -/
theorem Reachable.bindingLaw (h : Reachable ⟨false, true⟩ a) : BindingLaw a.world := by
  have hw := h.bindings rfl
  refine {
    text := fun id n d hl hx hr => ?_
    names := fun id n d st hl hx hr hst => ?_
    entry := fun id n d hl hx hr o ho => ?_
    there := fun id n d hl hx o ho => there_of_stocked (hw.stocked id n d ⟨hl, hx⟩) ho
    own := fun i j n m d e hi hj hd he o ho p hp hop => ?_
    loaded := fun s stmt d w' hr => ⟨(h.loaded rfl hr).2, fun name b hb => ?_⟩
    writes := fun s stmt d w' iters results memory l hr he buffer hno => ?_ }
  · obtain ⟨st, hst, ⟨sql, mode, hp, hq⟩, -⟩ := hw.agree id n d ⟨hl, hx⟩ hr
    exact ⟨sql, mode, by rw [prepared?, hst]; exact hp, hq⟩
  · obtain ⟨st', hst', hag⟩ := hw.agree id n d ⟨hl, hx⟩ hr
    obtain rfl := Option.some.inj (hst.symm.trans hst')
    exact ⟨hag.keys, (hw.stocked id n d ⟨hl, hx⟩).names⟩
  · obtain ⟨st, hst, hag⟩ := hw.agree id n d ⟨hl, hx⟩ hr
    obtain ⟨b, hb, hframe⟩ := hag.entry (hw.stocked id n d ⟨hl, hx⟩).names ho
    exact ⟨b, by rw [bound?, hst]; exact hb, describes hframe⟩
  · have hij : i = j := by
      by_contra hne
      exact hw.apart i j n m d e ⟨hi, hd⟩ ⟨hj, he⟩ hne (List.mem_map_of_mem ho)
        (hop ▸ List.mem_map_of_mem hp)
    subst hij
    obtain rfl := hi.unique hj
    rw [Node.Keeps, hd] at he
    obtain rfl := Extra.statement.inj (Option.some.inj he)
    exact ⟨rfl, (hw.stocked i n d ⟨hi, hd⟩).unique ho hp hop⟩
  · obtain ⟨o, ho, hname, hframe⟩ := h.bound_loaded rfl hr hb
    obtain ⟨hw', id, n, -, hl, -, hx, -⟩ := h.loaded rfl hr
    obtain ⟨-, h2, h3, -, -, h6⟩ := describes hframe
    refine ⟨o, ho, hname, h6.symm, ?_⟩
    rw [h2, h3, h6]
    exact there_of_stocked (hw'.stocked id n d ⟨hl, hx⟩) ho
  · obtain ⟨opened, he⟩ := executed he
    refine he.others buffer fun name b hb hbuffer => hno ?_
    obtain ⟨o, ho, -, hframe⟩ := h.bound_loaded rfl hr hb
    rw [← hbuffer, (describes hframe).2.2.2.2.2]
    exact List.mem_map_of_mem ho

/-- A variable is bound, a second one is refused, and the first one is bound again: of the three buffers that
were made the last one is left, in both tables. -/
theorem bindingLaw_after_rebinding :
    let s : Statement := ⟨0, ⟨0, ⟨some 1⟩⟩, ⟨some 2⟩⟩
    let w := (play [.createEnvironment default,
      .environment ⟨0, ⟨some 0⟩⟩ (.connect (.ofPassword "db" "user" "word")),
      .connection ⟨0, ⟨some 1⟩⟩ (.prepare "q"),
      .newVar (.single .bool true), .statement s (.bind (.name "x") 0 .input .regular 0),
      .library (.failNext .bind (.single 1036 "illegal variable name/number")),
      .statement s (.bind (.name "y") 0 .input .regular 0), .statement s (.allowRebinding true),
      .statement s (.bind (.name "x") 0 .output .regular 0)] start).world
    BindingLaw w ∧ w.library.bindCount (s.handle.native w) = 1 ∧
      (w.library.bound? (s.handle.native w) "x").map Bound.buffer = some 2 ∧
      (s.data? w).map (fun d => d.binds.buffers) = some [2] ∧ w.memory.rows.keys = [2] := by
  refine ⟨Reachable.bindingLaw (runs_play ?_), by decide +kernel, by decide +kernel, by decide +kernel,
    by decide +kernel⟩
  exact ⟨trivial, by decide +kernel, trivial, by decide +kernel, trivial, by decide +kernel, trivial,
    by decide +kernel, trivial, by decide +kernel, nofun, by decide +kernel, trivial, by decide +kernel, trivial,
    by decide +kernel, trivial, by decide +kernel, trivial⟩

end Application
end DbClient
