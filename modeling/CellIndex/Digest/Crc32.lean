import CellIndex.Bytes

/-!
# The cyclic redundancy check of 32 bits

The check of a run of bytes with the reflected polynomial `0xEDB88320`: the register starts with
all bits set, takes in one byte at a time, and is inverted at the end.
-/

namespace CellIndex.Crc32

/-- One step of the division: the register moves down by one bit. -/
def shift (register : UInt32) : UInt32 :=
  if register &&& 1 = 1 then (register >>> 1) ^^^ 0xEDB88320 else register >>> 1

/-- The register after one more byte. -/
def update (register : UInt32) (byte : UInt8) : UInt32 :=
  Nat.repeat shift 8 (register ^^^ byte.toUInt32)

/-- The check of a run of bytes. -/
def checksum (bytes : Bytes) : UInt32 :=
  bytes.foldl update 0xFFFFFFFF ^^^ 0xFFFFFFFF

end CellIndex.Crc32
