import CellIndex.Bytes

/-!
# Blocks

A block is the unit that a table stores under a number: a short run of shared data and a run of
data.
-/

namespace CellIndex

/-- A numbered block of a table. -/
structure Block where
  /-- The number under which the block is stored. -/
  id : UInt32
  /-- What holds for the block as a whole. -/
  shared : Bytes
  /-- The contents. -/
  data : Bytes
deriving DecidableEq, Inhabited, Repr

/-- The bytes of a block as they stand in a file. -/
def Block.bytes (block : Block) : Bytes := block.shared ++ block.data

end CellIndex
