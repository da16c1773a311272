import CellIndex.Digest.Sha256
import CellIndex.Search
import CellIndex.Table.Directory

/-!
# Tables

A table is a file that stores blocks under numbers: a header, the blocks, and a directory that
reaches to the end.

```text
+------------------+
|      header      |  64 bytes
+------------------+
|      blocks      |  [shared data][data] each
+------------------+
|    directory     |  24 bytes per block, sorted by block id
+------------------+
```

`Table.ofBytes` reads a whole table and checks it, so that afterwards no look-up can fail.
-/

namespace CellIndex

/-- A table that has been read. -/
structure Table where
  /-- The header of the file. -/
  header : Header
  /-- The blocks, ascending by their numbers. -/
  blocks : Array Block

namespace Table

/-- The directory that a file has according to its header. -/
def directory (header : Header) (bytes : Bytes) : Except Error (List DirectoryEntry) :=
  let count := header.blockCount.toNat
  let offset := header.directoryOffset.toNat
  if offset < Header.size ∨ offset + DirectoryEntry.size * count ≠ bytes.length then
    .error (.corrupt (.directoryEnd count offset bytes.length))
  else
    let entries := DirectoryEntry.decodeMany count (bytes.drop offset)
    (DirectoryEntry.checkFrom offset none entries).map fun _ => entries

/-- The table in a file. -/
def ofBytes (bytes : Bytes) : Except Error Table := do
  let header ← Header.decode bytes
  header.validate
  if Sha256.digest (bytes.drop Header.size) ≠ header.checksum then .error .checksumMismatch
  else
    let entries ← directory header bytes
    return { header, blocks := (entries.map (·.block bytes)).toArray }

/-- The number of blocks. -/
def blockCount (t : Table) : Nat := t.blocks.size

/-- The numbers of the blocks, ascending. -/
def blockIds (t : Table) : List UInt32 := t.blocks.toList.map Block.id

/-- Whether the block at a place of the table has a number below `id`. -/
def isBelow (t : Table) (id : UInt32) (index : Nat) : Bool :=
  match t.blocks[index]? with
  | some block => block.id < id
  | none => false

/-- The block with a number, by a binary search. -/
def find? (t : Table) (id : UInt32) : Option Block :=
  t.blocks[Search.bisect (t.isBelow id) 0 t.blocks.size]?.filter (·.id = id)

end Table

end CellIndex
