import CellIndex.Format.Params

/-!
# Cells in the layout of a format

How a format cuts the id of a cell into prefix and suffix, and puts it together again.

The *position* of an id is the number that its significant bits spell, prefix and suffix together.
Cells of the level that follow each other on the curve have positions that follow each other, so
lengths of ranges are differences of positions.  An id of a finer level has the position of the
cell above it.
-/

namespace CellIndex.Format

/-- The level of the cells. -/
def level (f : Format) : Nat := f.params.level.toNat

/-- The number of bits of the prefix. -/
def prefixBits (f : Format) : Nat := f.params.prefixBits.toNat

/-- The number of bits of the suffix. -/
def suffixBits (f : Format) : Nat := f.params.suffixBits.toNat

/-- The number of bytes of a value. -/
def valueBytes (f : Format) : Nat := f.params.valueBytes.toNat

/-- The number of significant bits of a cell. -/
def dataBits (f : Format) : Nat := f.prefixBits + f.suffixBits

/-- The number of zero bits below the marker of a cell. -/
def tailBits (f : Format) : Nat := 63 - f.dataBits

/-- The largest prefix. -/
def maxPrefix (f : Format) : Nat := 2 ^ f.prefixBits - 1

/-- The largest suffix. -/
def maxSuffix (f : Format) : Nat := 2 ^ f.suffixBits - 1

/-- The number of bytes of a record. -/
def recordBytes (f : Format) : Nat := f.params.recordBits.toNat / 8

/-- The number of bits that a record has for the length of a range. -/
def lengthBits (f : Format) : Nat := f.params.recordBits.toNat - f.suffixBits

/-- The largest length that a record can say. -/
def maxLength (f : Format) : Nat := 2 ^ f.lengthBits - 1

/-- The largest value that can be stored.  Values of four bytes leave their highest bit unused. -/
def maxValue (f : Format) : Nat :=
  if f.valueBytes < 4 then 256 ^ f.valueBytes - 1 else 0x7FFFFFFF

/-- The number of the block that holds the table of a prefix. -/
def blockId (f : Format) (tablePrefix : UInt32) : UInt32 := tablePrefix + f.params.blockOffset

/-- The face that a prefix begins with. -/
def faceOfPrefix (f : Format) (tablePrefix : UInt32) : UInt8 :=
  UInt8.ofNat (tablePrefix.toNat / 2 ^ (f.prefixBits - 3))

/-- The significant bits of an id. -/
def position (f : Format) (id : CellId) : Nat := id.toNat / 2 ^ (f.tailBits + 1)

/-- The cell at a position.  Bits beyond the significant ones are dropped. -/
def cellAt (f : Format) (position : Nat) : CellId :=
  .ofNat (position * 2 ^ (f.tailBits + 1) + 2 ^ f.tailBits)

/-- The upper bits of an id. -/
def prefixOf (f : Format) (id : CellId) : UInt32 :=
  UInt32.ofNat (id.toNat / 2 ^ (64 - f.prefixBits))

/-- The lower significant bits of an id. -/
def suffixOf (f : Format) (id : CellId) : Nat := f.position id % 2 ^ f.suffixBits

/-- The cell with a prefix and a suffix. -/
def cell? (f : Format) (tablePrefix : UInt32) (suffix : Nat) : Except Error CellId :=
  if f.maxPrefix < tablePrefix.toNat then
    .error (.invalidArgument (.prefixBits tablePrefix.toNat f.prefixBits))
  else if f.maxSuffix < suffix then
    .error (.invalidArgument (.suffixBits suffix f.suffixBits))
  else .ok (f.cellAt (tablePrefix.toNat * 2 ^ f.suffixBits + suffix))

/-- Whether the id is a cell of the level. -/
def IsCell (f : Format) (id : CellId) : Prop := id.Valid ∧ id.level = f.level

instance (f : Format) (id : CellId) : Decidable (f.IsCell id) :=
  inferInstanceAs (Decidable (_ ∧ _))

/-- Whether the id has marker and zeros where the cells of the level have them.  Besides the cells
this holds for the bound after the last face. -/
def IsBoundary (f : Format) (id : CellId) : Prop :=
  id.toNat % 2 ^ (f.tailBits + 1) = 2 ^ f.tailBits

instance (f : Format) (id : CellId) : Decidable (f.IsBoundary id) :=
  inferInstanceAs (Decidable (_ = _))

/-- The number of cells from `start` up to `stop`, zero if `stop` does not come later. -/
def rangeLength (f : Format) (start stop : CellId) : Nat := f.position stop - f.position start

/-! ## Bounds -/

theorem dataBits_eq (f : Format) : f.dataBits = 3 + 2 * f.level := f.valid.bits_eq

theorem level_le (f : Format) : f.level ≤ 30 := f.valid.level_le

theorem dataBits_le (f : Format) : f.dataBits ≤ 63 := by
  have := f.dataBits_eq
  have := f.level_le
  omega

theorem tailBits_eq (f : Format) : f.tailBits = 2 * (30 - f.level) := by
  have := f.dataBits_eq
  have := f.level_le
  unfold tailBits
  omega

theorem lengthBits_pos (f : Format) : 0 < f.lengthBits := by
  have := f.valid.recordBits_gt
  unfold lengthBits suffixBits
  omega

/-- A record can say the length one. -/
theorem maxLength_pos (f : Format) : 0 < f.maxLength := by
  have h := f.lengthBits_pos
  have : 2 ^ 1 ≤ 2 ^ f.lengthBits := Nat.pow_le_pow_right (by decide) h
  unfold maxLength
  omega

theorem recordBytes_pos (f : Format) : 0 < f.recordBytes := by
  have h1 := f.valid.recordBits_gt
  have h2 := f.valid.recordBits_mod
  have h3 := f.valid.suffixBits_pos
  unfold recordBytes
  omega

theorem recordBytes_le (f : Format) : f.recordBytes ≤ 8 := by
  have h := f.valid.recordBits_le
  unfold recordBytes
  omega

end CellIndex.Format
