import CellIndex.Bytes
import CellIndex.Error

/-!
# Fields of a run of bytes

Reading and appending numbers of a chosen width of at most eight bytes.  A read names the place
where the number begins and never leaves the run; a number is only appended if it fits its width.
-/

namespace CellIndex.Bytes

/-- The largest number of `width` bytes, where more than eight bytes count as eight. -/
def limit (width : Nat) : Nat := 256 ^ min width 8 - 1

/-- The `length` bytes at `offset`, or those of them that are there. -/
def slice (bytes : Bytes) (offset length : Nat) : Bytes :=
  (bytes.drop offset).take length

/-- The number in the `width` bytes at `offset`, as far as they are there. -/
def number (bytes : Bytes) (offset width : Nat) : Nat :=
  BigEndian.decode (bytes.slice offset width)

/-- The run followed by the number `value` in `width` bytes. -/
def append (bytes : Bytes) (width value : Nat) : Except Error Bytes :=
  if 8 < width then .error (.invalidArgument (.widthTooLarge width))
  else if limit width < value then .error (.invalidArgument (.doesNotFit value width))
  else .ok (bytes ++ BigEndian.encode width value)

/-- The number in the `width` bytes at `offset`, all of which must be there. -/
def read (bytes : Bytes) (offset width : Nat) : Except Error Nat :=
  if 8 < width then .error (.invalidArgument (.widthTooLarge width))
  else if bytes.length < offset + width then
    .error (.invalidArgument (.readPastEnd width offset bytes.length))
  else .ok (bytes.number offset width)

/-- The byte at `offset`. -/
def byteAt (bytes : Bytes) (offset : Nat) : Except Error UInt8 :=
  match bytes[offset]? with
  | some byte => .ok byte
  | none => .error (.invalidArgument (.bytePastEnd offset bytes.length))

theorem length_slice {bytes : Bytes} {offset length : Nat} (h : offset + length ≤ bytes.length) :
    (bytes.slice offset length).length = length := by
  simp only [slice, List.length_take, List.length_drop]
  omega

/-- A number fits a width of at most eight bytes if it is less than the power of 256. -/
theorem le_limit_iff {width value : Nat} (h : width ≤ 8) :
    value ≤ limit width ↔ value < 256 ^ width := by
  have hp : 0 < 256 ^ width := Nat.pow_pos (by decide)
  rw [limit, Nat.min_eq_left h]
  omega

end CellIndex.Bytes
