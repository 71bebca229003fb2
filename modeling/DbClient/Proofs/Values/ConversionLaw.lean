import DbClient.Proofs.Values.Numerals

/-! What values are as numbers. An integer is converted exactly or refused with the type that was asked for, whether
it comes as an integer of any width, as a truth value or as a text, and a host value that became a value is had back.
-/
namespace DbClient

namespace Host

/-- The same host value; one that is not a number is as good as any other. -/
def Alike : (ty : ValueType) → Host ty → Host ty → Prop
  | .float _, x, y => x = y ∨ (Binary.isNaN x = true ∧ Binary.isNaN y = true)
  | _, x, y => x = y

end Host

namespace Value
open Text

/-- The integer that a value holds, or that its text denotes. -/
inductive Denotes : Value → Int → Prop
  | bool (b : Bool) : Denotes (.bool b) (if b then 1 else 0)
  | int (t : IntType) (n : Fixed t) : Denotes (.int t n) n.val
  | text (s : IntegerText) : Denotes (.string s.text) s.value

variable {v : Value} {n : Int}

namespace Denotes

/-- Such a value is a number that stands for its integer. -/
lemma number? (h : Denotes v n) : ∃ x, v.number? = some x ∧ Number.StandsFor x n := by
  cases h with
  | bool b => exact ⟨_, rfl, .integer _⟩
  | int t n => exact ⟨_, rfl, .integer _⟩
  | text s => exact Number.read?_text s

lemma isNull (h : Denotes v n) : v.isNull = false := by
  cases h <;> rfl

/-- It is converted to an integer type as its integer is. -/
lemma toHost?_int (h : Denotes v n) (t : IntType) : v.toHost? (.int t) = Fixed.ofInt? t n := by
  obtain ⟨x, hx, hstands⟩ := h.number?
  rw [← Number.toFixed?_of_standsFor hstands t]
  cases h <;> exact congrArg (fun o => Option.bind o (Number.toFixed? t)) hx

lemma toHost?_bool (h : Denotes v n) : v.toHost? .bool = some (decide (n ≠ 0)) := by
  obtain ⟨x, hx, hstands⟩ := h.number?
  rw [← Number.isNonzero_of_standsFor hstands]
  cases h with
  | bool b =>
    cases hx
    cases b <;> rfl
  | int t n => exact congrArg (Option.map Number.isNonzero) hx
  | text s => exact congrArg (Option.map Number.isNonzero) hx

end Denotes

/-- A value that is not null is converted, whether or not null would have been accepted. -/
lemma answer_of_some {v : Value} {ty : ValueType} {x : Host ty} (h : v.isNull = false) (optional : Bool)
    (hx : v.toHost? ty = some x) : v.answer ⟨optional, some ty⟩ = .ok (.host ⟨ty, x⟩) := by
  simp only [answer, h, hx, Bool.and_false, Bool.false_eq_true, if_false]

/-- When it cannot be, the type that was asked for is named. -/
lemma answer_of_none {v : Value} {ty : ValueType} (h : v.isNull = false) (optional : Bool)
    (hx : v.toHost? ty = none) : v.answer ⟨optional, some ty⟩ = .error ty := by
  simp only [answer, h, hx, Bool.and_false, Bool.false_eq_true, if_false]

lemma isNull_toValue (ty : ValueType) (x : Host ty) : (Host.toValue ty x).isNull = false := by
  cases ty <;> rfl

/-- A host value that became a value is had back, a moment apart, which may lose its last digits. -/
lemma toHost?_toValue {ty : ValueType} (h : ty ≠ .dateTime) (x : Host ty) :
    ∃ y, (Host.toValue ty x).toHost? ty = some y ∧ Host.Alike ty x y := by
  cases ty with
  | int t => exact ⟨x, Fixed.ofInt?_val x, rfl⟩
  | float p =>
    refine ⟨Binary.convert p x, rfl, ?_⟩
    cases hx : Binary.isNaN x with
    | false => exact .inl (Binary.convert_self hx).symm
    | true => exact .inr ⟨hx, Binary.isNaN_convert hx p⟩
  | dateTime => exact absurd rfl h
  | _ => exact ⟨x, rfl, rfl⟩

/-- How values answer when they are asked for numbers, for truth values and for what they were made from. -/
structure ConversionLaw (optional : Bool) : Prop where
  /-- An integer is had exactly, or the type to which it does not belong is named. -/
  exact {v : Value} {n : Int} : v.Denotes n → ∀ t : IntType, v.answer ⟨optional, some (.int t)⟩ =
    if h : t.Holds n then .ok (.host ⟨.int t, ⟨n, h⟩⟩) else .error (.int t)
  /-- As a truth value it says whether it differs from zero. -/
  truth {v : Value} {n : Int} : v.Denotes n →
    v.answer ⟨optional, some .bool⟩ = .ok (.host ⟨.bool, decide (n ≠ 0)⟩)
  /-- It makes no difference whether it is compared with zero as an integer or as the double nearest to it. -/
  nearest (n : Int) : (Number.integer n).isNonzero = !((Number.integer n).toBinary .double).isZero
  /-- What became a value comes back, whatever type it has. -/
  back {ty : ValueType} : ty ≠ .dateTime → ∀ x : Host ty, ∃ y,
    (Host.toValue ty x).answer ⟨optional, some ty⟩ = .ok (.host ⟨ty, y⟩) ∧ Host.Alike ty x y

/-- Every conversion of an integer is exact or refused, and every host value survives the way there and back. -/
theorem conversionLaw (optional : Bool) : ConversionLaw optional where
  exact {v n} h t := by
    by_cases hn : t.Holds n
    · rw [dif_pos hn]
      exact answer_of_some h.isNull optional ((h.toHost?_int t).trans (Fixed.ofInt?_eq_some hn))
    · rw [dif_neg hn]
      exact answer_of_none h.isNull optional ((h.toHost?_int t).trans (dif_neg hn))
  truth h := answer_of_some h.isNull optional h.toHost?_bool
  nearest n := by
    rw [Number.toBinary, Binary.isZero_ofInt, Number.isNonzero]
    exact decide_not
  back {ty} hty x := by
    obtain ⟨y, hy, halike⟩ := toHost?_toValue hty x
    exact ⟨y, answer_of_some (isNull_toValue ty x) optional hy, halike⟩

/-- A text with blanks around a sign, leading zeros and thirty-nine further digits. -/
def longText : IntegerText where
  before := ['\t', ' ']
  sign := .minus
  digits := [0, 0, 1, 7, 0, 1, 4, 1, 1, 8, 3, 4, 6, 0, 4, 6, 9, 2, 3, 1, 7, 3, 1, 6, 8, 7, 3, 0, 3, 7, 1, 5, 8, 8, 4, 1,
    0, 5, 7, 2, 9]
  after := ['\n']
  blank := ⟨List.all_eq_true.mp rfl, List.all_eq_true.mp rfl⟩
  nonempty := by decide

/-- One below the least integer of 128 bits. -/
theorem conversionLaw_beyond_range : longText.value = -(2 ^ 127) - 1 ∧
    (Value.string longText.text).answer ⟨true, some (.int .int64)⟩ = .error (.int .int64) :=
  ⟨by decide, (conversionLaw true).exact (.text longText) .int64⟩

end Value
end DbClient
