import DbClient.Bind.Object
import Mathlib.Data.List.Basic

/-! Cells of a buffer: what one write leaves of the bytes around it, which bytes host values come to as
elements, and what the native library finds in the cells. -/
namespace DbClient

/-! ### Bytes of a buffer -/

theorem getElem?_overlay (buffer : List UInt8) (offset : Nat) (bytes : List UInt8) (k : Nat) :
    (overlay buffer offset bytes)[k]? =
      if offset ≤ k ∧ k < offset + bytes.length ∧ k < buffer.length then bytes[k - offset]? else buffer[k]? := by
  by_cases hk : k < buffer.length
  · simp only [overlay, List.getElem?_append, List.length_take, List.getElem?_take, List.getElem?_drop]
    by_cases hlow : k < offset
    · have h1 : k < min offset buffer.length := by omega
      simp [h1, hlow, Nat.not_le.mpr hlow]
    · by_cases hhigh : k < offset + bytes.length
      · have h1 : ¬k < min offset buffer.length := by omega
        have h2 : k - min offset buffer.length = k - offset := by omega
        have h3 : k - offset < min (buffer.length - offset) bytes.length := by omega
        have h4 : k - offset < buffer.length - offset := by omega
        simp [h1, h2, h3, h4, hk, hhigh, Nat.not_lt.mp hlow]
      · have h1 : ¬k < min offset buffer.length := by omega
        have h2 : ¬k - min offset buffer.length < min (buffer.length - offset) bytes.length := by omega
        have h3 : offset + bytes.length + (k - min offset buffer.length - min (buffer.length - offset) bytes.length)
            = k := by omega
        simp [h1, h2, h3, hhigh]
  · rw [List.getElem?_eq_none (by simpa using hk), if_neg (by omega), List.getElem?_eq_none (by simpa using hk)]

theorem getElem?_slice (buffer : List UInt8) (offset length k : Nat) :
    (slice buffer offset length)[k]? = if k < length then buffer[offset + k]? else none := by
  simp [slice, List.getElem?_take, List.getElem?_drop]

/-- A slice of a buffer that is long enough has its full length. -/
lemma length_slice {buffer : List UInt8} {offset length : Nat} (h : offset + length ≤ buffer.length) :
    (slice buffer offset length).length = length := by
  simp only [slice, List.length_take, List.length_drop]
  omega

/-- What has been laid over a buffer is found in its place. -/
theorem slice_overlay_self {buffer bytes : List UInt8} {offset : Nat}
    (h : offset + bytes.length ≤ buffer.length) : slice (overlay buffer offset bytes) offset bytes.length = bytes := by
  ext1 k
  rw [getElem?_slice, getElem?_overlay]
  by_cases hk : k < bytes.length
  · have hin : offset ≤ offset + k ∧ offset + k < offset + bytes.length ∧ offset + k < buffer.length := by omega
    simp [hk, hin]
  · rw [if_neg hk, List.getElem?_eq_none (by omega)]

/-- What lies beside it is left alone. -/
theorem slice_overlay_beside {buffer bytes : List UInt8} {offset start length : Nat}
    (h : start + length ≤ offset ∨ offset + bytes.length ≤ start) :
    slice (overlay buffer offset bytes) start length = slice buffer start length := by
  ext1 k
  rw [getElem?_slice, getElem?_slice, getElem?_overlay]
  by_cases hk : k < length
  · have hout : ¬(offset ≤ start + k ∧ start + k < offset + bytes.length ∧ start + k < buffer.length) := by omega
    simp [hk, hout]
  · simp [hk]

/-- Cells of one length do not overlap. -/
lemma cells_apart {i j length : Nat} (h : i ≠ j) :
    i * length + length ≤ j * length ∨ j * length + length ≤ i * length := by
  rcases Nat.lt_or_gt_of_ne h with hij | hji
  · left
    calc i * length + length = (i + 1) * length := (Nat.succ_mul i length).symm
      _ ≤ j * length := Nat.mul_le_mul_right length hij
  · right
    calc j * length + length = (j + 1) * length := (Nat.succ_mul j length).symm
      _ ≤ i * length := Nat.mul_le_mul_right length hji

lemma cell_within {i count length : Nat} (h : i < count) : i * length + length ≤ length * count := by
  calc i * length + length = (i + 1) * length := (Nat.succ_mul i length).symm
    _ ≤ count * length := Nat.mul_le_mul_right length h
    _ = length * count := Nat.mul_comm _ _

@[simp] lemma length_zeroFilled {length : Nat} {bytes : List UInt8} (h : bytes.length ≤ length) :
    (zeroFilled length bytes).length = length := by
  simp only [zeroFilled, List.length_append, List.length_replicate]
  omega

lemma take_zeroFilled (length : Nat) (bytes : List UInt8) : (zeroFilled length bytes).take bytes.length = bytes := by
  simp [zeroFilled]

/-- Bytes that fill a whole buffer replace it. -/
lemma overlay_whole {buffer bytes : List UInt8} (h : bytes.length = buffer.length) :
    overlay buffer 0 bytes = bytes := by
  simp [overlay, ← h]

/-! ### The longest front that fits -/

namespace Text.Utf8

lemma fitting_prefix (n : Nat) (s : List Char) : fitting n s <+: s := by
  induction s generalizing n with
  | nil => simp [fitting]
  | cons c rest ih =>
    by_cases h : (encodeChar c).length ≤ n
    · simpa [fitting, h] using ih (n - (encodeChar c).length)
    · simp [fitting, h]

/-- A prefix that fits is no longer than the one that is taken. -/
theorem prefix_fitting {n : Nat} {p s : List Char} (hp : p <+: s) (h : (encode p).length ≤ n) :
    p <+: fitting n s := by
  induction s generalizing n p with
  | nil => simpa [fitting] using hp
  | cons c rest ih =>
    cases p with
    | nil => simp
    | cons d q =>
      obtain ⟨rfl, hq⟩ := List.cons_prefix_cons.mp hp
      rw [encode_cons, List.length_append] at h
      have hc : (encodeChar d).length ≤ n := by omega
      simp only [fitting, hc, if_true]
      exact List.cons_prefix_cons.mpr ⟨rfl, ih hq (by omega)⟩

end Text.Utf8

namespace Host
open Text (Utf8.encode)

/-- The bytes of a host value as far as they fit into `n` bytes: those of its longest fitting front, which for a
text ends with a character. A value of fixed length has always all of its bytes. -/
def Fits (n : Nat) : (ty : ValueType) → Host ty → List UInt8 → Prop
  | .string, s, bs => ∃ p : List Char, p <+: s.toList ∧ Utf8.encode p = bs ∧ bs.length ≤ n ∧
      ∀ q, q <+: s.toList → (Utf8.encode q).length ≤ n → q <+: p
  | .raw, all, bs => bs <+: all ∧ bs.length ≤ n ∧ ∀ cs, cs <+: all → cs.length ≤ n → cs <+: bs
  | ty, x, bs => bs = bytes ty x

theorem fits_bytesWithin (n : Nat) (ty : ValueType) (x : Host ty) : Fits n ty x (bytesWithin n ty x) := by
  cases ty with
  | string =>
    let s : String := x
    exact ⟨Text.Utf8.fitting n s.toList, Text.Utf8.fitting_prefix n s.toList, rfl,
      Text.Utf8.length_encode_fitting_le n s.toList, fun q hq hn => Text.Utf8.prefix_fitting hq hn⟩
  | raw =>
    let all : List UInt8 := x
    refine ⟨List.take_prefix n all, ?_, fun cs hcs hn => ?_⟩
    · exact List.length_take_le n all
    · exact List.prefix_take_iff.mpr ⟨hcs, hn⟩
  | _ => rfl

lemma length_bytesWithin_le {ty : ValueType} (hv : ty.isVariable = true) (n : Nat) (x : Host ty) :
    (bytesWithin n ty x).length ≤ n := by
  cases ty with
  | string => exact Text.Utf8.length_encode_fitting_le n _
  | raw => exact List.length_take_le n _
  | _ => cases hv

/-- Values of fixed length have as many bytes as their type says. -/
lemma length_bytes {ty : ValueType} {size : Nat} (h : ty.size? = some size) (x : Host ty) :
    (bytes ty x).length = size := by
  cases ty <;> simp [ValueType.size?] at h <;> simp [bytes, ← h, IntType.size]

lemma bytesWithin_of_fixed {ty : ValueType} (hv : ty.isVariable = false) (n : Nat) (x : Host ty) :
    bytesWithin n ty x = bytes ty x := by
  cases ty <;> first | rfl | cases hv

end Host

lemma ValueType.size?_of_fixed {ty : ValueType} (hv : ty.isVariable = false) : ∃ size, ty.size? = some size := by
  cases ty <;> first | exact ⟨_, rfl⟩ | cases hv

lemma ValueType.stride_of_variable {ty : ValueType} (hv : ty.isVariable = true) (size : Nat) :
    ty.stride size = size + 1 := by
  cases ty <;> first | rfl | cases hv

/-! ### Elements -/

namespace Host
variable {ty : ValueType}

/-- An element keeps the length of its cell. -/
lemma length_writeElement (ty : ValueType) (x : Host ty) (cell : List UInt8) :
    (writeElement ty x cell).2.length = cell.length := by
  unfold writeElement
  by_cases hv : ty.isVariable = true
  · have := length_bytesWithin_le hv (cell.length - 1) x
    simp only [hv, if_true]
    exact length_zeroFilled (by omega)
  · simp [hv]

/-- The front of a cell after an element of variable length has been written. -/
lemma writeElement_of_variable (hv : ty.isVariable = true) (x : Host ty) (cell : List UInt8) :
    (writeElement ty x cell).2.take (writeElement ty x cell).1 = bytesWithin (cell.length - 1) ty x := by
  simp only [writeElement, hv, if_true, take_zeroFilled]

lemma writeElement_of_fixed {size : Nat} (hv : ty.isVariable = false) (hs : ty.size? = some size) (x : Host ty)
    {cell : List UInt8} (hc : cell.length = size) : (writeElement ty x cell).2 = bytes ty x := by
  simp only [writeElement, hv, Bool.false_eq_true, if_false]
  exact overlay_whole (by rw [length_bytes hs, hc])

/-- What is found of an element in its cell is what fits into an element of the given size. -/
theorem found_of_writeElement {size : Nat} {cell : List UInt8} (hc : cell.length = ty.stride size) (x : Host ty) :
    (if ty.isVariable then (writeElement ty x cell).2.take (writeElement ty x cell).1
      else (writeElement ty x cell).2) = bytesWithin size ty x := by
  cases hv : ty.isVariable with
  | true =>
    rw [ValueType.stride_of_variable hv] at hc
    rw [if_pos rfl, writeElement_of_variable hv x cell, hc, Nat.add_sub_cancel]
  | false =>
    obtain ⟨length, hl⟩ := ValueType.size?_of_fixed hv
    have hlen : cell.length = length := by simpa [ValueType.stride, hl] using hc
    rw [if_neg Bool.false_ne_true, writeElement_of_fixed hv hl x hlen, bytesWithin_of_fixed hv]

end Host

/-! ### Elements that take part -/

namespace BindPlan
variable {o : BindPlan} {arraySize length i : Nat}

/-- An element takes part in an exchange with a variable of the given length: both sides have room for it, and for
an element of a regular vector the array has, too. A single value has one element. -/
def Covers (o : BindPlan) (arraySize length i : Nat) : Prop :=
  match o.form with
  | .vector kind _ elemCount => i < elemCount ∧ i < length ∧ (kind = .regular → i < arraySize)
  | _ => i = 0

lemma covers_iff : o.Covers arraySize length i ↔ i < o.count arraySize length := by
  unfold Covers count
  cases o.form with
  | cell => simp
  | text size => simp
  | vector kind elemSize elemCount =>
    cases kind with
    | regular =>
      simp only [forall_const]
      omega
    | table =>
      simp only [reduceCtorEq, false_implies, and_true]
      omega

lemma count_le_elemCount (o : BindPlan) (arraySize length : Nat) : o.count arraySize length ≤ o.elemCount := by
  unfold count elemCount
  cases o.form with
  | cell => exact Nat.le_refl 1
  | text size => exact Nat.le_refl 1
  | vector kind elemSize elemCount => cases kind <;> dsimp only <;> omega

end BindPlan
end DbClient
