import CellIndex.Block
import CellIndex.Bytes.Field
import CellIndex.Table.Header

/-!
# Table directories

The directory says where every block of a table stands.  Each of its entries takes 24 bytes:

```text
block id u32 | shared length u32 | offset u64 | data length u64
```

The shared data of a block begin at the offset, and its data follow at once.  Blocks stand between
the header and the directory, and the entries are sorted by the numbers of their blocks, so no
number occurs twice.
-/

namespace CellIndex

/-- Where a block stands in its table. -/
structure DirectoryEntry where
  /-- The number of the block. -/
  blockId : UInt32
  /-- The number of bytes of its shared data. -/
  sharedLength : UInt32
  /-- Where its shared data begin. -/
  offset : UInt64
  /-- The number of bytes of its data. -/
  dataLength : UInt64
deriving DecidableEq, Inhabited, Repr

namespace DirectoryEntry

/-- The number of bytes of an entry. -/
def size : Nat := 24

/-- The bytes of an entry. -/
def encode (e : DirectoryEntry) : Bytes :=
  BigEndian.encode 4 e.blockId.toNat ++ BigEndian.encode 4 e.sharedLength.toNat ++
    BigEndian.encode 8 e.offset.toNat ++ BigEndian.encode 8 e.dataLength.toNat

/-- The entry that 24 bytes spell. -/
def ofBytes (bytes : Bytes) : DirectoryEntry where
  blockId := UInt32.ofNat (bytes.number 0 4)
  sharedLength := UInt32.ofNat (bytes.number 4 4)
  offset := UInt64.ofNat (bytes.number 8 8)
  dataLength := UInt64.ofNat (bytes.number 16 8)

/-- The entry that a run of bytes begins with. -/
def decode (bytes : Bytes) : Except Error DirectoryEntry :=
  if bytes.length < size then .error (.corrupt .directoryEntry) else .ok (ofBytes bytes)

/-- The first `count` entries in a run of bytes. -/
def decodeMany : (count : Nat) → Bytes → List DirectoryEntry
  | 0, _ => []
  | count + 1, bytes => ofBytes bytes :: decodeMany count (bytes.drop size)

/-- Where the block ends, as an exact number. -/
def stop (e : DirectoryEntry) : Nat :=
  e.offset.toNat + e.sharedLength.toNat + e.dataLength.toNat

/-- Where the block ends, if a word can say it. -/
def stop? (e : DirectoryEntry) : Option UInt64 :=
  if e.stop < 2 ^ 64 then some (UInt64.ofNat e.stop) else none

/-- Whether the block stands between the header and `limit`. -/
def InBounds (limit : Nat) (e : DirectoryEntry) : Prop :=
  Header.size ≤ e.offset.toNat ∧ e.stop ≤ limit

instance (limit : Nat) (e : DirectoryEntry) : Decidable (e.InBounds limit) :=
  inferInstanceAs (Decidable (_ ∧ _))

/-- The block of an entry, cut out of the bytes of its table. -/
def block (bytes : Bytes) (e : DirectoryEntry) : Block where
  id := e.blockId
  shared := bytes.slice e.offset.toNat e.sharedLength.toNat
  data := bytes.slice (e.offset.toNat + e.sharedLength.toNat) e.dataLength.toNat

/-- Checks that every block stands between the header and `limit`, and that the numbers of the
blocks ascend, beginning after `previous` if there is one. -/
def checkFrom (limit : Nat) : (previous : Option UInt32) → List DirectoryEntry → Except Error Unit
  | _, [] => .ok ()
  | previous, e :: rest =>
    if ¬ e.InBounds limit then .error (.corrupt (.blockOutside e.blockId))
    else match previous with
      | none => checkFrom limit (some e.blockId) rest
      | some id =>
        if e.blockId ≤ id then .error (.corrupt (.directoryOrder e.blockId id))
        else checkFrom limit (some e.blockId) rest

end DirectoryEntry

end CellIndex
