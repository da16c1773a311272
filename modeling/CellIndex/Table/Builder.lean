import CellIndex.Digest.Sha256
import CellIndex.Table.Directory

/-!
# Building tables

A builder collects blocks in any order.  Its image is the file of the table: the blocks in the
order in which they came, and a directory sorted by their numbers.
-/

namespace CellIndex

/-- The blocks of a table that is being built. -/
structure Builder where
  /-- The blocks in the order in which they came. -/
  blocks : List Block
  /-- No number occurs twice. -/
  ids_nodup : (blocks.map Block.id).Nodup

namespace Builder

/-- A table without blocks. -/
def empty : Builder := ⟨[], .nil⟩

/-- The number of blocks. -/
def blockCount (b : Builder) : Nat := b.blocks.length

/-- The table with one more block, whose number must be new. -/
def add (b : Builder) (block : Block) : Except Error Builder :=
  if h : block.id ∈ b.blocks.map Block.id then .error (.invalidArgument (.blockTwice block.id))
  else if 2 ^ 32 ≤ block.shared.length then
    .error (.invalidArgument (.sharedTooLong block.id block.shared.length))
  else
    .ok
      { blocks := b.blocks ++ [block]
        ids_nodup := by
          rw [List.map_append, List.map_singleton]
          refine List.nodup_append.2 ⟨b.ids_nodup, by simp, ?_⟩
          simp only [List.mem_singleton]
          rintro id hid _ rfl rfl
          exact h hid }

/-- Where blocks stand that follow each other from `offset` on. -/
def entriesFrom (offset : Nat) : List Block → List DirectoryEntry
  | [] => []
  | block :: rest =>
    { blockId := block.id
      sharedLength := UInt32.ofNat block.shared.length
      offset := UInt64.ofNat offset
      dataLength := UInt64.ofNat block.data.length } ::
      entriesFrom (offset + block.bytes.length) rest

/-- The bytes of all blocks. -/
def data (b : Builder) : Bytes := b.blocks.flatMap Block.bytes

/-- The sorted directory. -/
def directory (b : Builder) : List DirectoryEntry :=
  (entriesFrom Header.size b.blocks).mergeSort fun x y => x.blockId ≤ y.blockId

/-- Everything after the header. -/
def body (b : Builder) : Bytes := b.data ++ b.directory.flatMap DirectoryEntry.encode

/-- The header of the finished table. -/
def header (b : Builder) (timestamp : Int64) : Header :=
  { Header.fresh with
    blockCount := UInt32.ofNat b.blockCount
    directoryOffset := UInt64.ofNat (Header.size + b.data.length)
    timestamp
    checksum := Sha256.digest b.body }

/-- The file of the finished table. -/
def image (b : Builder) (timestamp : Int64) : Bytes := (b.header timestamp).encode ++ b.body

end Builder

end CellIndex
