import DbClient.Proofs.Outcomes
import DbClient.Proofs.Transfer.Push

/-! Moments as counts of microseconds. A moment counts the microseconds since the epoch, rounded down, and a count
stands for a moment exactly when its second lies in the range of the calendar; the same count is handed over in values
and in the cells of bound variables. -/
namespace DbClient
open Act World

namespace DateTime

/-- The nanoseconds since the epoch. Those of a leap second are counted on from the second before it. -/
def sinceEpoch (d : DateTime) : Int := d.seconds * 1000000000 + d.nanos

/-- Moments are ordered as they are told: by the seconds, then by the nanoseconds. -/
instance : LE DateTime := ⟨fun d e => d.seconds < e.seconds ∨ d.seconds = e.seconds ∧ d.nanos ≤ e.nanos⟩

/-- The first second of the calendar. -/
def firstSecond : Int := Date.toDays ⟨-262143, 1, 1⟩ * 86400

/-- The last second of the calendar. -/
def lastSecond : Int := Date.toDays ⟨262142, 12, 31⟩ * 86400 + 86399

lemma calendar_range : firstSecond = -8334601228800 ∧ lastSecond = 8210266876799 := by decide

lemma seconds_mem (d : DateTime) : firstSecond ≤ d.seconds ∧ d.seconds ≤ lastSecond := by
  rw [calendar_range.1, calendar_range.2]
  exact d.inRange

/-! ### Counting -/

lemma val_micros (d : DateTime) : d.micros.val = d.sinceEpoch.fdiv 1000 := by
  rw [Int.fdiv_eq_ediv_of_nonneg _ (by decide), sinceEpoch]
  simp only [micros]
  omega

/-- The seconds alone do not pass 64 bits, either. -/
lemma holds_seconds (d : DateTime) : IntType.int64.Holds (d.seconds * 1000000) := by
  have := d.inRange
  simp only [IntType.Holds, IntType.min, IntType.max, IntType.signed, IntType.bits, IntType.size, if_true]
  omega

/-- A leap second counts as the second after it. -/
lemma micros_leap {d e : DateTime} (hseconds : e.seconds = d.seconds + 1) (hnanos : d.nanos = e.nanos + 1000000000) :
    d.micros = e.micros := by
  apply Fixed.ext
  simp only [micros, hseconds, hnanos]
  omega

/-- Outside leap seconds, a later moment has no smaller count. -/
lemma micros_mono {d e : DateTime} (hd : d.nanos < 1000000000) (h : d ≤ e) : d.micros.val ≤ e.micros.val := by
  simp only [micros]
  obtain h | ⟨h, h'⟩ : d.seconds < e.seconds ∨ d.seconds = e.seconds ∧ d.nanos ≤ e.nanos := h
  · omega
  · have hdiv := Nat.div_le_div_right (c := 1000) h'
    omega

/-! ### Reading counts -/

/-- A count is read as the moment of its second and of the microseconds that are left. -/
lemma ofMicros?_eq_some_iff {m : Int} {d : DateTime} : ofMicros? m = some d ↔
    d.seconds = m.fdiv 1000000 ∧ (d.nanos : Int) = m.fmod 1000000 * 1000 := by
  have hnanos : (m % 1000000 * 1000).toNat < 1000000000 := by omega
  rw [Int.fdiv_eq_ediv_of_nonneg _ (by decide), Int.fmod_eq_emod_of_nonneg _ (by decide)]
  unfold ofMicros? ofTimestamp?
  obtain ⟨seconds, nanos, hrange, hlt⟩ := d
  by_cases hm : -8334601228800 ≤ m / 1000000 ∧ m / 1000000 ≤ 8210266876799
  · simp only [hm, hnanos, true_or, and_self, dite_true, Option.some.injEq, mk.injEq]
    omega
  · simp only [hm, dite_false, reduceCtorEq, false_iff]
    rintro ⟨rfl, -⟩
    exact hm hrange

/-- A count can be read exactly when its second lies in the calendar. -/
lemma exists_ofMicros?_iff (m : Int) : (∃ d, ofMicros? m = some d) ↔
    firstSecond ≤ m.fdiv 1000000 ∧ m.fdiv 1000000 ≤ lastSecond := by
  constructor
  · rintro ⟨d, hd⟩
    rw [← (ofMicros?_eq_some_iff.mp hd).1]
    exact d.seconds_mem
  · intro hm
    have hmod : 0 ≤ m.fmod 1000000 ∧ m.fmod 1000000 < 1000000 :=
      ⟨Int.fmod_nonneg_of_pos m (by decide), Int.fmod_lt_of_pos m (by decide)⟩
    rw [calendar_range.1, calendar_range.2] at hm
    refine ⟨⟨m.fdiv 1000000, (m.fmod 1000000 * 1000).toNat, hm, by omega⟩, ofMicros?_eq_some_iff.mpr ⟨rfl, ?_⟩⟩
    exact Int.toNat_of_nonneg (by omega)

/-- A moment outside leap seconds comes back without the nanoseconds below its last microsecond. -/
lemma ofMicros?_micros (d : DateTime) (h : d.nanos < 1000000000) :
    ofMicros? d.micros.val = some ⟨d.seconds, d.nanos / 1000 * 1000, d.inRange, by omega⟩ := by
  rw [ofMicros?_eq_some_iff, Int.fdiv_eq_ediv_of_nonneg _ (by decide), Int.fmod_eq_emod_of_nonneg _ (by decide)]
  simp only [micros]
  omega

end DateTime

/-! ### Values and cells -/

/-- An element of a vector of moments holds the count of its moment. -/
lemma Host.ofBytes_writeElement (d : DateTime) {cell : List UInt8} (h : 8 ≤ cell.length) :
    Fixed.ofBytes .int64 (writeElement .dateTime d cell).2 = d.micros := by
  have hfit : d.micros.bytes.take cell.length = d.micros.bytes :=
    List.take_of_length_le (by simpa [IntType.size] using h)
  change Fixed.ofBytes .int64 (overlay cell 0 d.micros.bytes) = d.micros
  rw [overlay, List.take_zero, List.nil_append, Nat.sub_zero, hfit]
  exact Fixed.ofBytes_bytes d.micros _

namespace BindObject
variable {w v : World} {stmt : Address} {o : BindObject} {i : Nat} {d : DateTime}

/-- What the native library finds in an element of fixed length is its cell. -/
lemma Stands.seen?_eq_cell (hs : o.Stands stmt w) (hv : o.ty.isVariable = false) (hi : i < o.elemCount) :
    w.seen? stmt o.name (i + 1) = some (o.cell i w) := by
  obtain ⟨⟨bytes, hm, -⟩, ⟨b, he, hf⟩⟩ := hs
  rw [seen?_eq he hf hm hi, hv, if_neg Bool.false_ne_true, cell, World.bufferBytes, hm, Option.getD_some]

/-- The count of a moment is put into the cell, and the native library finds it there. -/
lemma ends_pushCell (hs : o.Stands stmt w) (hform : o.form = .cell) (hty : o.ty = .dateTime) :
    Ends (o.pushCell .dateTime d) w fun r v => r = .ok () ∧ Fixed.ofBytes .int64 (o.cell 0 v) = d.micros ∧
      v.seen? stmt o.name 1 = some (o.cell 0 v) := by
  have hv : o.ty.isVariable = false := by rw [hty]; rfl
  have hcount : o.elemCount = 1 := by simp [BindPlan.elemCount, hform]
  have hsize : d.micros.bytes.length = o.elemSize := by
    simp [BindPlan.elemSize, hform, hty, IntType.size, ValueType.size?]
  have hplace : o.Places stmt 0 d.micros.bytes 0 w
      ((w.writeBuffer o.buffer 0 d.micros.bytes).note (.pushedValue o.name .dateTime)) := by
    refine ⟨by rw [Nat.zero_mul]; rfl, fun b hb => ?_⟩
    rw [hv, if_neg Bool.false_ne_true]
    exact hb
  obtain ⟨hs', hself, -⟩ := hplace.spec hs (by omega) hsize
  rw [hv, if_neg Bool.false_ne_true] at hself
  have hcell := hs'.seen?_eq_cell (i := 0) hv (by omega)
  refine ⟨rfl, ?_, hcell⟩
  have hbytes := Option.some.inj (hcell.symm.trans hself)
  have hread := Fixed.ofBytes_bytes d.micros []
  rw [List.append_nil, ← hbytes] at hread
  exact hread

/-- A value comes out of a cell, or a failed conversion is told. -/
lemma run_pullCell (o : BindObject) (ty : ValueType) (w : World) : (o.pullCell ty).run w =
    match Host.ofBytes? ty (o.cell 0 w) with
    | some x => (.ok (), (w.setVar o.var (.single ty x)).note (.pulledValue o.name ty))
    | none => (.error (.conversion ty), w) := by
  unfold pullCell
  rw [run_get_bind]
  cases Host.ofBytes? ty (o.cell 0 w) <;> rfl

end BindObject

namespace DateTime

/-- How moments are handed over as counts of microseconds. -/
structure MicrosLaw : Prop where
  /-- The count of a moment is that of its nanoseconds since the epoch in thousands, rounded down. -/
  count : ∀ d : DateTime, d.micros.val = d.sinceEpoch.fdiv 1000
  /-- A word of 64 bits holds the microseconds of the seconds, and the count. -/
  fits : ∀ d : DateTime, IntType.int64.Holds (d.seconds * 1000000) ∧
    IntType.int64.Holds (d.seconds * 1000000 + ((d.nanos / 1000 : Nat) : Int))
  /-- A leap second counts as the second after it. -/
  leap : ∀ d e : DateTime, e.seconds = d.seconds + 1 → d.nanos = e.nanos + 1000000000 → d.micros = e.micros
  /-- A count is that of a moment exactly when its second lies in the calendar, -/
  read : ∀ m : Fixed .int64, (∃ d, ofMicros? m.val = some d) ↔
    firstSecond ≤ m.val.fdiv 1000000 ∧ m.val.fdiv 1000000 ≤ lastSecond
  /-- and the count of this moment is the one that was read. -/
  again : ∀ (m : Fixed .int64) d, ofMicros? m.val = some d → d.micros = m
  /-- A moment outside leap seconds comes back from its count, truncated to the microsecond, be it before the epoch or
  after it. -/
  back : ∀ d : DateTime, d.nanos < 1000000000 → ∃ e, ofMicros? d.micros.val = some e ∧ e.seconds = d.seconds ∧
    e.nanos = d.nanos / 1000 * 1000 ∧ e.sinceEpoch = d.sinceEpoch.fdiv 1000 * 1000
  /-- Outside leap seconds, later moments have no smaller counts. -/
  mono : ∀ d e : DateTime, d.nanos < 1000000000 → e.nanos < 1000000000 → d ≤ e → d.micros.val ≤ e.micros.val
  /-- The count is handed over in a value, and read from it. -/
  value : (∀ d : DateTime, Host.toValue .dateTime d = .dateTime d.micros) ∧
    ∀ m : Fixed .int64, (Value.dateTime m).toHost? .dateTime = ofMicros? m.val
  /-- It is put into the cell of a bound variable, where the native library finds it, -/
  push : ∀ (o : BindObject) stmt w (d : DateTime), o.Stands stmt w → o.form = .cell → o.ty = .dateTime →
    Ends (o.pushCell .dateTime d) w fun r v => r = .ok () ∧ Fixed.ofBytes .int64 (o.cell 0 v) = d.micros ∧
      v.seen? stmt o.name 1 = some (o.cell 0 v)
  /-- and into the cell of an element of a vector; -/
  element : ∀ (d : DateTime) cell, 8 ≤ cell.length →
    Fixed.ofBytes .int64 (Host.writeElement .dateTime d cell).2 = d.micros
  /-- and from such a cell it is read as its moment, or the conversion fails. -/
  pull : ∀ (o : BindObject) w, ((o.pullCell .dateTime).run w).1 =
      (if (ofMicros? (Fixed.ofBytes .int64 (o.cell 0 w)).val).isSome then .ok () else .error (.conversion .dateTime)) ∧
    ∀ d, ofMicros? (Fixed.ofBytes .int64 (o.cell 0 w)).val = some d →
      ((o.pullCell .dateTime).run w).2.vars = (w.setVar o.var (.single .dateTime d)).vars

/-- The law of counts holds of all moments and of all words. -/
theorem microsLaw : MicrosLaw where
  count := val_micros
  fits d := ⟨d.holds_seconds, d.holds_micros⟩
  leap _ _ := micros_leap
  read m := exists_ofMicros?_iff m.val
  again _ _ h := Fixed.ext (micros_of_ofMicros? h)
  back d h := by
    refine ⟨_, d.ofMicros?_micros h, rfl, rfl, ?_⟩
    rw [Int.fdiv_eq_ediv_of_nonneg _ (by decide)]
    simp only [sinceEpoch]
    omega
  mono _ _ hd _ := micros_mono hd
  value := ⟨fun _ => rfl, fun _ => rfl⟩
  push _ _ _ _ hs hform hty := BindObject.ends_pushCell hs hform hty
  element d _ := Host.ofBytes_writeElement d
  pull o w := by
    rw [o.run_pullCell]
    cases h : ofMicros? (Fixed.ofBytes .int64 (o.cell 0 w)).val with
    | none =>
      have hread : Host.ofBytes? .dateTime (o.cell 0 w) = none := h
      rw [hread]
      exact ⟨rfl, fun e he => absurd he (Option.some_ne_none e).symm⟩
    | some d =>
      have hread : Host.ofBytes? .dateTime (o.cell 0 w) = some d := h
      rw [hread]
      exact ⟨rfl, fun e he => Option.some.inj he ▸ rfl⟩

/-- The microsecond before the epoch lies in the last second before it, and its count is rounded down. -/
example : (ofMicros? (-1)).map (fun d => (d.seconds, d.nanos)) = some (-1, 999999000) ∧
    (DateTime.mk (-1) 999999001 (by decide) (by decide)).micros.val = -1 := by decide

end DateTime
end DbClient
