import CellIndex.Bytes.Field

/-!
# Table headers

A table begins with 64 bytes that identify it and say where its directory begins:

```text
magic 8 | version u32 | block count u32 | directory offset u64 | timestamp i64 | checksum 32
```

The checksum covers everything after the header, so the header itself is only checked for its magic
bytes and its version.
-/

namespace CellIndex

/-- The first 64 bytes of a table. -/
structure Header where
  /-- The bytes that tell that the file is a table. -/
  magic : FixedBytes 8
  /-- The version of the layout. -/
  version : UInt32
  /-- The number of blocks in the directory. -/
  blockCount : UInt32
  /-- Where the directory begins.  It reaches to the end of the file. -/
  directoryOffset : UInt64
  /-- When the file was written, in seconds. -/
  timestamp : Int64
  /-- The digest of everything after the header. -/
  checksum : FixedBytes 32
deriving DecidableEq

namespace Header

/-- The number of bytes of a header. -/
def size : Nat := 64

/-- The magic bytes of every table: the letters `SATS2RNG`. -/
def tableMagic : FixedBytes 8 := ⟨[0x53, 0x41, 0x54, 0x53, 0x32, 0x52, 0x4E, 0x47], rfl⟩

/-- The version of the layout that is written, and the latest that is read. -/
def currentVersion : UInt32 := 1

/-- The header of a table without blocks, before its checksum is known. -/
def fresh : Header where
  magic := tableMagic
  version := currentVersion
  blockCount := 0
  directoryOffset := 64
  timestamp := 0
  checksum := FixedBytes.zero 32

/-- The bytes of a header. -/
def encode (h : Header) : Bytes :=
  h.magic.1 ++ BigEndian.encode 4 h.version.toNat ++ BigEndian.encode 4 h.blockCount.toNat ++
    BigEndian.encode 8 h.directoryOffset.toNat ++ BigEndian.encode 8 h.timestamp.toUInt64.toNat ++
    h.checksum.1

/-- The header that a file begins with.  Its contents are not judged. -/
def decode (bytes : Bytes) : Except Error Header :=
  if h : bytes.length < size then .error (.invalidHeaderSize size bytes.length)
  else
    have long : 64 ≤ bytes.length := Nat.le_of_not_lt h
    .ok
      { magic := ⟨bytes.slice 0 8, Bytes.length_slice (by omega)⟩
        version := UInt32.ofNat (bytes.number 8 4)
        blockCount := UInt32.ofNat (bytes.number 12 4)
        directoryOffset := UInt64.ofNat (bytes.number 16 8)
        timestamp := (UInt64.ofNat (bytes.number 24 8)).toInt64
        checksum := ⟨bytes.slice 32 32, Bytes.length_slice (by omega)⟩ }

/-- Whether the header is that of a table that can be read. -/
def validate (h : Header) : Except Error Unit :=
  if h.magic ≠ tableMagic then .error .invalidMagic
  else if currentVersion < h.version then .error (.unsupportedVersion h.version.toNat)
  else .ok ()

@[simp] theorem length_encode (h : Header) : h.encode.length = size := by
  simp [encode, h.magic.2, h.checksum.2, size]

end Header

end CellIndex
