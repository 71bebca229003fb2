import DbClient.Proofs.Text.Utf8
import DbClient.Proofs.Transfer.Cells

/-! Values of variable length written over buffers and cells that may be too short for them. A value is cut at the
last boundary that fits, what is left of the buffer is cleared, and the bytes that were written are always read back.
-/
namespace DbClient

namespace Text.Utf8

lemma encode_append (p q : List Char) : encode (p ++ q) = encode p ++ encode q := List.flatMap_append

lemma prefix_encode {p s : List Char} (h : p <+: s) : encode p <+: encode s := by
  obtain ⟨q, rfl⟩ := h
  exact ⟨encode q, (encode_append p q).symm⟩

/-- The search from above stops where the characters that fit end. -/
theorem lastBoundary_eq (s : List Char) (n : Nat) : lastBoundary (encode s) n = (encode (fitting n s)).length := by
  obtain ⟨⟨p, hp, hlen⟩, hle, hmax⟩ := lastBoundary_spec s n
  apply Nat.le_antisymm
  · rw [← hlen]
    exact (prefix_encode (prefix_fitting hp (hlen ▸ hle))).length_le
  · exact hmax _ (length_encode_fitting_le n s) ⟨_, fitting_prefix n s, rfl⟩

/-- Beyond the end there is nothing to search. -/
lemma fitting_min (n : Nat) (s : List Char) : fitting (min (encode s).length n) s = fitting n s := by
  rcases Nat.le_total (encode s).length n with h | h
  · rw [Nat.min_eq_left h, fitting_of_length_le (Nat.le_refl _), fitting_of_length_le h]
  · rw [Nat.min_eq_right h]

end Text.Utf8

namespace Host
open Text

variable {ty : ValueType} {x : Host ty} {length n : Nat}

/-! ### Where values are cut -/

/-- A position at which a value may be cut: a text between two characters, a byte string anywhere, any other value
only behind its last byte. -/
def Boundary : (ty : ValueType) → Host ty → Nat → Prop
  | .string, s, n => Utf8.Boundary (String.toList s) n
  | .raw, all, n => n ≤ List.length all
  | ty, x, n => n = (bytes ty x).length

/-- The position at which a value is cut that has to end at or before another: for a text it is sought downwards. -/
def cut : (ty : ValueType) → Host ty → Nat → Nat
  | .string, s, n => Utf8.lastBoundary (Utf8.bytes s) n
  | _, _, n => n

/-- The first bytes of a value laid over a used buffer, with zeros from there to its end. -/
def copyOver (buffer bs : List UInt8) (n : Nat) : List UInt8 :=
  overlay (overlay buffer 0 (bs.take n)) n (List.replicate (buffer.length - n) 0)

lemma prefix_bytesWithin (n : Nat) (ty : ValueType) (x : Host ty) : bytesWithin n ty x <+: bytes ty x := by
  cases ty with
  | string => exact Utf8.prefix_encode (Utf8.fitting_prefix n _)
  | raw => exact List.take_prefix n _
  | _ => exact List.prefix_rfl

lemma bytesWithin_eq_take (n : Nat) (ty : ValueType) (x : Host ty) :
    bytesWithin n ty x = (bytes ty x).take (bytesWithin n ty x).length :=
  List.prefix_iff_eq_take.mp (prefix_bytesWithin n ty x)

/-- A value that fits is not cut. -/
lemma bytesWithin_of_fits (h : (bytes ty x).length ≤ n) : bytesWithin n ty x = bytes ty x := by
  cases ty with
  | string =>
    let s : String := x
    exact congrArg Utf8.encode (Utf8.fitting_of_length_le (s := s.toList) h)
  | raw => exact List.take_of_length_le h
  | _ => rfl

lemma boundary_bytesWithin (n : Nat) (ty : ValueType) (x : Host ty) : Boundary ty x (bytesWithin n ty x).length := by
  cases ty with
  | string => exact ⟨_, Utf8.fitting_prefix n _, rfl⟩
  | raw => exact (prefix_bytesWithin n .raw x).length_le
  | _ => exact rfl

/-- No boundary that fits lies behind the bytes that are written. -/
lemma le_bytesWithin {m : Nat} (hm : m ≤ n) (hb : Boundary ty x m) : m ≤ (bytesWithin n ty x).length := by
  cases ty with
  | string =>
    obtain ⟨p, hp, hlen⟩ := hb
    rw [← hlen]
    exact (Utf8.prefix_encode (Utf8.prefix_fitting hp (hlen ▸ hm))).length_le
  | raw =>
    let all : List UInt8 := x
    have hin : m ≤ all.length := hb
    exact (List.length_take (i := n) (l := all)).symm ▸ Nat.le_min.mpr ⟨hm, hin⟩
  | _ => exact Nat.le_of_eq hb

lemma length_bytesWithin_eq_cut (hv : ty.isVariable = true) (n : Nat) (x : Host ty) :
    (bytesWithin n ty x).length = cut ty x (min (bytes ty x).length n) := by
  cases ty with
  | string =>
    let s : String := x
    exact (congrArg (fun p => (Utf8.encode p).length) (Utf8.fitting_min n s.toList)).symm.trans
      (Utf8.lastBoundary_eq s.toList _).symm
  | raw => exact (List.length_take (i := n)).trans (Nat.min_comm _ _)
  | _ => cases hv

/-! ### Reading back -/

/-- The bytes that were written are those of a value, which is the front of the one that was given. -/
lemma ofBytes?_bytesWithin (hv : ty.isVariable = true) (n : Nat) (x : Host ty) :
    ∃ y, ofBytes? ty (bytesWithin n ty x) = some y ∧ bytes ty y = bytesWithin n ty x := by
  cases ty with
  | string =>
    refine ⟨String.ofList (Utf8.fitting n _), Utf8.decode?_encode _, ?_⟩
    exact congrArg Utf8.encode String.toList_ofList
  | raw => exact ⟨_, rfl, rfl⟩
  | _ => cases hv

lemma ofBytes?_bytes (hv : ty.isVariable = true) (x : Host ty) : ofBytes? ty (bytes ty x) = some x := by
  cases ty with
  | string => exact Utf8.decode?_bytes x
  | raw => rfl
  | _ => cases hv

/-! ### Writing -/

/-- What writing a value to a buffer comes to: how many bytes were taken of it, and the buffer afterwards. -/
structure Truncated (ty : ValueType) (x : Host ty) (length n : Nat) (buffer : List UInt8) : Prop where
  /-- The value is cut at a boundary within the buffer. -/
  boundary : Boundary ty x n ∧ n ≤ length
  /-- No boundary behind it would do. -/
  greatest : ∀ m, m ≤ length → Boundary ty x m → m ≤ n
  /-- The first bytes of the value are followed only by zeros, up to the end of the buffer. -/
  content : buffer = (bytes ty x).take n ++ List.replicate (length - n) 0
  /-- They are read back as a value with just these bytes. -/
  read : ∃ y, ofBytes? ty (buffer.take n) = some y ∧ bytes ty y = (bytes ty x).take n
  /-- A value that fits is read back as a whole. -/
  whole : (bytes ty x).length ≤ length → n = (bytes ty x).length ∧ ofBytes? ty (buffer.take n) = some x

/-- Writing the bytes that fit, with zeros behind them. -/
lemma truncated_zeroFilled (hv : ty.isVariable = true) (x : Host ty) (length : Nat) :
    Truncated ty x length (bytesWithin length ty x).length (zeroFilled length (bytesWithin length ty x)) where
  boundary := ⟨boundary_bytesWithin length ty x, length_bytesWithin_le hv length x⟩
  greatest _ hm hb := le_bytesWithin hm hb
  content := by rw [zeroFilled, ← bytesWithin_eq_take]
  read := by
    obtain ⟨y, hy, hbytes⟩ := ofBytes?_bytesWithin hv length x
    exact ⟨y, by rw [take_zeroFilled, hy], by rw [hbytes, ← bytesWithin_eq_take]⟩
  whole h := by
    have hall := bytesWithin_of_fits h
    exact ⟨congrArg List.length hall, by rw [take_zeroFilled, hall, ofBytes?_bytes hv]⟩

/-- The bytes before the end of the value come from it, those behind are cleared, and none is left as it was. -/
lemma copyOver_eq {buffer bs : List UInt8} (hb : n ≤ bs.length) (hn : n ≤ buffer.length) :
    copyOver buffer bs n = zeroFilled buffer.length (bs.take n) := by
  have hlen : (bs.take n).length = n := List.length_take_of_le hb
  have hfront : (overlay buffer 0 (bs.take n)).take n = bs.take n := by
    have hslice : slice (overlay buffer 0 (bs.take n)) 0 (bs.take n).length = bs.take n :=
      slice_overlay_self (by omega)
    rwa [hlen, slice, List.drop_zero] at hslice
  have hend : (overlay buffer 0 (bs.take n)).drop (n + (buffer.length - n)) = [] :=
    List.drop_eq_nil_of_le (by rw [length_overlay]; omega)
  rw [copyOver, overlay, hfront, length_overlay, List.length_replicate, hend, List.append_nil, List.take_replicate,
    Nat.min_self, zeroFilled, hlen]

/-- Writing a value of variable length to a buffer goes through the steps of seeking the cut, copying and clearing,
whatever the buffer held before. -/
theorem fill_eq_copyOver (hv : ty.isVariable = true) (x : Host ty) (buffer : List UInt8) :
    fill ty x buffer.length = (cut ty x (min (bytes ty x).length buffer.length),
      copyOver buffer (bytes ty x) (cut ty x (min (bytes ty x).length buffer.length))) := by
  have hcut := length_bytesWithin_eq_cut hv buffer.length x
  have hlen := (prefix_bytesWithin buffer.length ty x).length_le
  have hfits := length_bytesWithin_le hv buffer.length x
  rw [← hcut, copyOver_eq hlen hfits, ← bytesWithin_eq_take]
  rfl

/-- An element of variable length is written before the last byte of its cell. -/
lemma writeElement_eq_fill (hv : ty.isVariable = true) (x : Host ty) (cell : List UInt8) :
    (writeElement ty x cell).1 = (fill ty x (cell.length - 1)).1 ∧
    (writeElement ty x cell).2 = (fill ty x (cell.length - 1)).2 ++ List.replicate (min cell.length 1) 0 := by
  have hfits := length_bytesWithin_le hv (cell.length - 1) x
  have hzeros : cell.length - (bytesWithin (cell.length - 1) ty x).length =
      cell.length - 1 - (bytesWithin (cell.length - 1) ty x).length + min cell.length 1 := by omega
  constructor
  · simp only [writeElement, hv, if_true, fill]
  · simp only [writeElement, hv, if_true, fill, zeroFilled, List.append_assoc, ← List.replicate_add]
    rw [hzeros]

/-- How values of variable length are written, to buffers of any length and to cells anywhere in a buffer. -/
structure TruncationLaw (ty : ValueType) (x : Host ty) : Prop where
  /-- A buffer receives what fits of the value, cut at the last boundary. -/
  filled (length : Nat) : Truncated ty x length (fill ty x length).1 (fill ty x length).2
  /-- The cut is sought from the end downwards, and nothing the buffer held before is left of it. -/
  reused (buffer : List UInt8) : fill ty x buffer.length = (cut ty x (min (bytes ty x).length buffer.length),
    copyOver buffer (bytes ty x) (cut ty x (min (bytes ty x).length buffer.length)))
  /-- A cell receives the value before its last byte. -/
  element (cell : List UInt8) : Truncated ty x (cell.length - 1) (writeElement ty x cell).1
    ((writeElement ty x cell).2.take (cell.length - 1))
  /-- The last byte is a zero, and the cell keeps its length. -/
  terminator (cell : List UInt8) : (writeElement ty x cell).2.length = cell.length ∧
    ((writeElement ty x cell).2.getLast? = if cell = [] then none else some 0)
  /-- An element is found in its cell, also in an empty one. -/
  inside (buffer : List UInt8) (offset length : Nat) : offset + length ≤ buffer.length →
    slice (overlay buffer offset (writeElement ty x (slice buffer offset length)).2) offset length =
      (writeElement ty x (slice buffer offset length)).2
  /-- No byte of the buffer changes outside the cell. -/
  outside (buffer : List UInt8) (offset length k : Nat) : ¬(offset ≤ k ∧ k < offset + length) →
    (overlay buffer offset (writeElement ty x (slice buffer offset length)).2)[k]? = buffer[k]?

/-- Every text and every byte string is cut at the last boundary that fits, and at no other place. -/
theorem truncationLaw {ty : ValueType} (hv : ty.isVariable = true) (x : Host ty) : TruncationLaw ty x where
  filled length := truncated_zeroFilled hv x length
  reused buffer := fill_eq_copyOver hv x buffer
  element cell := by
    obtain ⟨hcount, hcell⟩ := writeElement_eq_fill hv x cell
    have hlen : (fill ty x (cell.length - 1)).2.length = cell.length - 1 :=
      length_zeroFilled (length_bytesWithin_le hv (cell.length - 1) x)
    rw [hcount, hcell, List.take_left' hlen]
    exact truncated_zeroFilled hv x (cell.length - 1)
  terminator cell := by
    refine ⟨length_writeElement ty x cell, ?_⟩
    rw [(writeElement_eq_fill hv x cell).2]
    cases cell with
    | nil =>
      have hempty : (fill ty x 0).2 = [] :=
        List.eq_nil_of_length_eq_zero (length_zeroFilled (length_bytesWithin_le hv 0 x))
      simpa using hempty
    | cons b rest => simp
  inside buffer offset length hin := by
    have hlen : (writeElement ty x (slice buffer offset length)).2.length = length :=
      (length_writeElement ty x _).trans (length_slice hin)
    have hself : slice (overlay buffer offset (writeElement ty x (slice buffer offset length)).2) offset
        (writeElement ty x (slice buffer offset length)).2.length = _ := slice_overlay_self (by omega)
    rwa [hlen] at hself
  outside buffer offset length k hout := by
    have hle : (writeElement ty x (slice buffer offset length)).2.length ≤ length := by
      rw [length_writeElement]
      exact List.length_take_le _ _
    rw [getElem?_overlay, if_neg (by omega)]

/-- Six letters of two bytes each, in a buffer that ends within the third. -/
theorem truncationLaw_within_letter : TruncationLaw .string "привет" ∧
    fill .string "привет" 5 = (4, [0xD0, 0xBF, 0xD1, 0x80, 0]) :=
  ⟨truncationLaw rfl _, by decide⟩

end Host
end DbClient
