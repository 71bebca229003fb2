import DbClient.Value.Basic

/-! Native cells: the bytes in which host values are handed to the native library. Values of fixed
length fill the front of a cell, texts and byte strings are cut to what fits before its last byte.
-/
namespace DbClient

/-- Lays bytes over a buffer from an offset on; what would stick out at the end is dropped. -/
def overlay (buffer : List UInt8) (offset : Nat) (bytes : List UInt8) : List UInt8 :=
  buffer.take offset ++ (bytes.take (buffer.length - offset)
    ++ buffer.drop (offset + bytes.length))

/-- The bytes of a buffer between two offsets. -/
def slice (buffer : List UInt8) (offset length : Nat) : List UInt8 := (buffer.drop offset).take length

@[simp] theorem length_overlay (buffer : List UInt8) (offset : Nat) (bytes : List UInt8) :
    (overlay buffer offset bytes).length = buffer.length := by
  simp only [overlay, List.length_append, List.length_take, List.length_drop]
  omega

/-- The bytes padded with zeros to a length. -/
def zeroFilled (length : Nat) (bytes : List UInt8) : List UInt8 :=
  bytes ++ List.replicate (length - bytes.length) 0

namespace Host

/-- All bytes of a host value. -/
def bytes : (ty : ValueType) → Host ty → List UInt8
  | .bool, b => (Fixed.wrap .int32 (if b then 1 else 0)).bytes
  | .int _, n => Fixed.bytes n
  | .float _, x => Binary.bytes x
  | .string, s => Text.Utf8.bytes s
  | .raw, bs => bs
  | .dateTime, d => Fixed.bytes (DateTime.micros d)
  | .handle, word => Fixed.bytes word

/-- The bytes of a host value that fit into `n` bytes: a value of fixed length has always all of
them, a byte string its first ones, a text those of its whole characters. -/
def bytesWithin (n : Nat) : (ty : ValueType) → Host ty → List UInt8
  | .string, s => Text.Utf8.encode (Text.Utf8.fitting n s.toList)
  | .raw, bs => bs.take n
  | ty, x => bytes ty x

/-- The host value whose bytes stand in a cell; a text has to be UTF-8, a moment within the
calendar. -/
def ofBytes? : (ty : ValueType) → List UInt8 → Option (Host ty)
  | .bool, cell => some ((Fixed.ofBytes .int32 cell).val ≠ 0)
  | .int t, cell => some (Fixed.ofBytes t cell)
  | .float p, cell => some (Binary.ofBytes p cell)
  | .string, cell => Text.Utf8.decode? cell
  | .raw, cell => some cell
  | .dateTime, cell => DateTime.ofMicros? (Fixed.ofBytes .int64 cell).val
  | .handle, cell => some (Fixed.ofBytes .uint64 cell)

end Host

namespace ValueType

/-- The distance between elements of a vector, for elements of at most `size` bytes: those of
variable length have one byte more, for a terminator. -/
def stride (ty : ValueType) (size : Nat) : Nat := ty.size?.getD (size + 1)

/-- The handle type travels into the database whatever the direction. -/
def isHandle : ValueType → Bool
  | handle => true
  | _ => false

end ValueType

namespace Host

/-- The length of a host value as an element of a vector. -/
def elementLength (ty : ValueType) (x : Host ty) : Nat := ty.size?.getD (bytes ty x).length

/-- Writes a value of variable length over a whole buffer, zeros behind it. Returns how many bytes
the value took and the buffer. -/
def fill (ty : ValueType) (x : Host ty) (length : Nat) : Nat × List UInt8 :=
  let bs := bytesWithin length ty x
  (bs.length, zeroFilled length bs)

/-- Writes an element into a cell. A value of variable length leaves the last byte to a terminator.
Returns how many bytes the element took and the cell. -/
def writeElement (ty : ValueType) (x : Host ty) (cell : List UInt8) : Nat × List UInt8 :=
  if ty.isVariable then
    let bs := bytesWithin (cell.length - 1) ty x
    (bs.length, zeroFilled cell.length bs)
  else
    let bs := bytes ty x
    (bs.length, overlay cell 0 bs)

end Host
end DbClient
