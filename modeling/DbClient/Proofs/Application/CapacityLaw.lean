import DbClient.Proofs.Application.BindingLaw
import DbClient.Proofs.Bindings.Data

/-! The law of array sizes in any application: a statement is never executed in more iterations than the
vectors that are bound to it have elements, whatever the order in which the array is resized, vectors are
bound and texts are prepared. -/
namespace DbClient

/-- The kind of vector that is bound, none for a single value. -/
def BindPlan.kind? (o : BindPlan) : Option VectorKind :=
  match o.form with
  | .vector kind _ _ => some kind
  | _ => none

namespace BindPlan
variable {o : BindPlan} {d : StatementData} {w : World}

/-- Only a table has a table length, which is the number of its elements. -/
lemma tableLength_eq (o : BindPlan) : o.tableLength = if o.kind? = some .table then o.elemCount else 0 := by
  unfold tableLength kind? elemCount
  cases o.form with
  | cell => rfl
  | text size => rfl
  | vector kind elemSize elemCount => cases kind <;> simp

/-- A regular vector is made for the greatest array. -/
lemma MadeFor.elemCount_eq (h : o.MadeFor d w) (hk : o.kind? = some .regular) :
    o.elemCount = max d.arraySize d.initialArraySize := by
  obtain ⟨v, kind, size, -, he⟩ := h
  rw [he] at hk ⊢
  cases v with
  | single ty x => by_cases hv : ty.isVariable = true <;> simp [ofVar, single, kind?, hv] at hk
  | vector ty xs =>
    obtain rfl : kind = .regular := by simpa [ofVar, vector, kind?] using hk
    rfl

end BindPlan

namespace StatementData

/-- The array has at least one element and no more than it had at the first bind, and regular vectors have as
many as it had then. -/
structure Capacity (d : StatementData) : Prop where
  positive : 1 ≤ d.arraySize
  limit : d.arraySize ≤ d.initialArraySize
  free : d.binds.objects = [] → d.arraySize = d.initialArraySize
  regular : ∀ o ∈ d.binds.objects, o.kind? = some .regular → o.elemCount = d.initialArraySize
  prepared : d.binds.objects ≠ [] → Status.prepared.rank ≤ d.status.rank

variable {d d' : StatementData} {o : BindObject} {w : World}

/-- The array comes to another size only within the limit, and to a greater limit only while nothing is bound. -/
lemma Capacity.tune (h : d.Capacity) (hb : d'.binds = d.binds) (ha : d.Resized d')
    (hr : Status.prepared.rank ≤ d'.status.rank ↔ Status.prepared.rank ≤ d.status.rank) : d'.Capacity := by
  have hprepared : d'.binds.objects ≠ [] → Status.prepared.rank ≤ d'.status.rank := by
    rw [hb, hr]
    exact h.prepared
  obtain ⟨h1, h2⟩ | ⟨hpos, hsize⟩ := ha
  · refine ⟨h1 ▸ h.positive, by rw [h1, h2]; exact h.limit, fun he => ?_, fun o ho hk => ?_, hprepared⟩
    · rw [h1, h2]
      exact h.free (hb ▸ he)
    · rw [h2]
      exact h.regular o (hb ▸ ho) hk
  · by_cases he : d.binds.objects = []
    · have hempty : d.binds.isEmpty = true := by simp [BindsHolder.isEmpty, he]
      rw [hempty, if_pos rfl] at hsize
      refine ⟨hpos, by omega, fun _ => hsize.symm, fun o ho => ?_, hprepared⟩
      rw [hb, he] at ho
      cases ho
    · have hbound : d.binds.isEmpty = false := by simpa [BindsHolder.isEmpty] using he
      rw [hbound, if_neg Bool.false_ne_true] at hsize
      refine ⟨hpos, by omega, fun hnone => absurd (hb ▸ hnone) he, fun o ho hk => ?_, hprepared⟩
      rw [hsize.1]
      exact h.regular o (hb ▸ ho) hk

/-- A new regular vector has as many elements as the old ones. -/
lemma Capacity.bind (h : d.Capacity) (hm : o.MadeFor d w) (hr : Status.prepared.rank ≤ d.status.rank) :
    Capacity { d with binds := (d.binds.add o d.allowRebinding).2 } := by
  refine ⟨h.positive, h.limit, fun he => absurd he BindsHolder.add_ne_nil, fun p hp hk => ?_, fun _ => hr⟩
  rcases BindsHolder.mem_add hp with hp | rfl
  · exact h.regular p hp hk
  · rw [hm.elemCount_eq hk]
    exact Nat.max_eq_right h.limit

lemma Capacity.lasting : Lasting Capacity where
  fresh := ⟨by decide, by decide, fun _ => rfl, nofun, fun h => absurd rfl h⟩
  reset d sql status := ⟨Nat.le_refl 1, Nat.le_refl 1, fun _ => rfl, nofun, fun h => absurd rfl h⟩
  tune _ _ h hb ha hr := h.tune hb ha hr
  bind _ _ _ h hm _ hr := h.bind hm hr

end StatementData

namespace Application
open World Library Act
variable {t : Terms} {a : Application} {P : StatementData → Prop}

/-- A property of data that lasts holds of all data whenever an application is between two operations. -/
theorem Reachable.allData (hP : StatementData.Lasting P) (ht : t.foreign = false) (h : Reachable t a) :
    a.world.AllData P :=
  Path.allData hP ht (Runs.path h fit_start) fit_start.sound (owns_start t)
    fun i n d hd => by simp [start, World.fresh, HasData, Live] at hd

/-- No execution goes beyond the vectors that are bound. -/
structure CapacityLaw (w : World) : Prop where
  /-- The array of a live statement has at least one element and no more than at the first bind, -/
  size : ∀ id n d, w.Live id n → n.Keeps d → 1 ≤ d.arraySize ∧ d.arraySize ≤ d.initialArraySize
  /-- exactly as many while nothing is bound. -/
  free : ∀ id n d, w.Live id n → n.Keeps d → d.binds.objects = [] → d.arraySize = d.initialArraySize
  /-- Each regular vector that is bound has as many elements as the array had at the first bind. -/
  regular : ∀ id n d, w.Live id n → n.Keeps d → ∀ o ∈ d.binds.objects, o.kind? = some .regular →
    o.elemCount = d.initialArraySize
  /-- The native library knows the number of elements of each object, and a table length for tables alone, which
  is that number. -/
  entry : ∀ id n d, w.Live id n → n.Keeps d → ∀ o ∈ d.binds.objects, ∃ b,
    w.library.bound? n.native o.name = some b ∧ b.elemCount = o.elemCount ∧
      b.tableLength = if o.kind? = some .table then o.elemCount else 0
  /-- A statement that is about to be executed, be it right after its text has been prepared, is executed in no
  more iterations than each regular vector has elements, on both sides. -/
  iterations : ∀ (s : Statement) v stmt d u, (v = w ∨ ∃ mode sql r, (s.prepare mode sql).run w = (r, v)) →
    s.load.run v = (.ok (stmt, d), u) → ∀ o ∈ d.binds.objects, o.kind? = some .regular →
      d.arraySize ≤ o.elemCount ∧ ∃ b, u.library.bound? stmt o.name = some b ∧ d.arraySize ≤ b.elemCount

/-- The law of array sizes holds whenever an application is between two operations, and any primitive may fail at
any time. -/
theorem Reachable.capacityLaw (h : Reachable ⟨false, true⟩ a) : CapacityLaw a.world := by
  have hall := h.allData StatementData.Capacity.lasting rfl
  refine {
    size := fun id n d hl hx => ⟨(hall id n d ⟨hl, hx⟩).positive, (hall id n d ⟨hl, hx⟩).limit⟩
    free := fun id n d hl hx => (hall id n d ⟨hl, hx⟩).free
    regular := fun id n d hl hx => (hall id n d ⟨hl, hx⟩).regular
    entry := fun id n d hl hx o ho => ?_
    iterations := fun s v stmt d u hv hr o ho hk => ?_ }
  · have hr := (hall id n d ⟨hl, hx⟩).prepared (List.ne_nil_of_mem ho)
    obtain ⟨b, hb, hframe⟩ := (h.bindings rfl).entry ⟨hl, hx⟩ hr ho
    obtain ⟨-, -, h3, h4, -, -⟩ := describes hframe
    exact ⟨b, hb, h3, h4.trans o.tableLength_eq⟩
  · -- the statement is loaded at the end of a path
    have hpath : Path ⟨false, true⟩ (a.held, a.world) (a.held, v) := by
      obtain rfl | ⟨mode, sql, r, hp⟩ := hv
      · exact Relation.ReflTransGen.refl
      · exact (s.course_prepare mode sql).rel hp h.fit.sound
    have hsv : Sound a.held v := Path.sound hpath h.fit.sound
    have hload : Path ⟨false, true⟩ (a.held, a.world) (a.held, u) := hpath.trans (s.course_load.rel hr hsv)
    obtain ⟨id, n, -, hl, rfl, hx, -, hrank⟩ := Statement.load_spec hsv hr
    have hcap : d.Capacity := Path.allData StatementData.Capacity.lasting rfl hload h.fit.sound (h.owns rfl) hall
      id n d ⟨hl, hx⟩
    have hle : d.arraySize ≤ o.elemCount := by
      rw [hcap.regular o ho hk]
      exact hcap.limit
    have hbind := Path.bindings rfl hload h.fit.sound (h.owns rfl) (h.bindings rfl)
    obtain ⟨b, hb, hframe⟩ := hbind.entry ⟨hl, hx⟩ hrank ho
    refine ⟨hle, b, hb, ?_⟩
    rw [(describes hframe).2.2.1]
    exact hle

/-- An array of three is bound to, shrunk to two, bound to under another name, and grows back to three: both
regular vectors have three elements, and the table has as many as its vector. -/
theorem capacityLaw_after_resizing :
    let s : Statement := ⟨0, ⟨0, ⟨some 1⟩⟩, ⟨some 2⟩⟩
    let w := (play [.createEnvironment default,
      .environment ⟨0, ⟨some 0⟩⟩ (.connect (.ofPassword "db" "user" "word")),
      .connection ⟨0, ⟨some 1⟩⟩ (.prepare "q"), .newVar (.vector .bool [true, false]),
      .statement s (.setArraySize 3), .statement s (.bind (.name "x") 0 .input .regular 0),
      .statement s (.setArraySize 2), .statement s (.bind (.name "y") 0 .output .regular 0),
      .statement s (.bind (.name "t") 0 .output .table 0), .statement s (.setArraySize 3)] start).world
    CapacityLaw w ∧ (s.data? w).map (fun d => (d.arraySize, d.binds.objects.map fun o => o.elemCount)) =
      some (3, [3, 3, 2]) ∧
      (w.library.bound? (s.handle.native w) "t").map Bound.tableLength = some 2 := by
  refine ⟨Reachable.capacityLaw (runs_play ?_), by decide +kernel, by decide +kernel⟩
  exact ⟨trivial, by decide +kernel, trivial, by decide +kernel, trivial, by decide +kernel, trivial,
    by decide +kernel, trivial, by decide +kernel, trivial, by decide +kernel, trivial, by decide +kernel, trivial,
    by decide +kernel, trivial, by decide +kernel, trivial, by decide +kernel, trivial⟩

end Application
end DbClient
