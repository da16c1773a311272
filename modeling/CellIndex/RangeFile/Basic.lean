import CellIndex.Format.Header
import CellIndex.SuffixTable.Basic
import CellIndex.Table.Basic

/-!
# Range files

A range file answers which stored range holds a cell.  It is a table whose block zero tells the
format, and whose other blocks are suffix tables, one for each prefix that a range begins with.  A
look-up takes two steps: the upper bits of the cell choose a suffix table, and the lower bits are
searched for inside it.
-/

namespace CellIndex

/-- A range file that has been read. -/
structure RangeFile where
  /-- The blocks of the file. -/
  table : Table
  /-- The format that the file tells. -/
  format : Format

namespace RangeFile

/-- Whether a block number can be that of the header or of a suffix table. -/
def isBlockId (f : Format) (id : UInt32) : Bool :=
  id = Format.headerBlockId ∨
    (f.params.blockOffset.toNat ≤ id.toNat ∧ id.toNat ≤ f.maxPrefix + f.params.blockOffset.toNat)

/-- The range file that a table is, if it is one. -/
def ofTable (table : Table) : Except Error RangeFile :=
  match table.find? Format.headerBlockId with
  | none => .error (.corrupt .noHeaderBlock)
  | some header =>
    match Format.ofHeader header.data with
    | .error error => .error error
    | .ok format =>
      match table.blockIds.find? (! isBlockId format ·) with
      | some id => .error (.corrupt (.strayBlock id))
      | none => .ok { table, format }

/-- The range file in a run of bytes. -/
def ofBytes (bytes : Bytes) : Except Error RangeFile :=
  (Table.ofBytes bytes).bind ofTable

/-- The number of suffix tables. -/
def tableCount (r : RangeFile) : Nat := r.table.blockCount - 1

/-- What the file holds for a prefix. -/
def prefixTable (r : RangeFile) (tablePrefix : UInt32) : Except Error (PrefixTable r.format) :=
  if r.format.maxPrefix < tablePrefix.toNat then
    .error (.invalidArgument (.prefixBits tablePrefix.toNat r.format.prefixBits))
  else match r.table.find? (r.format.blockId tablePrefix) with
    | none => .ok (.unpopulated tablePrefix)
    | some block =>
      match SuffixTable.ofBlock r.format block with
      | .error error => .error error
      | .ok table =>
        if table.tablePrefix ≠ tablePrefix then
          .error (.corrupt (.otherPrefix block.id table.tablePrefix tablePrefix))
        else .ok (.populated table)

/-- The range that holds a cell, or the cell above an id of a finer level. -/
def find (r : RangeFile) (id : CellId) : Except Error (Option CellRange) :=
  (r.prefixTable (r.format.prefixOf id)).map fun table => (table.find id).map Entry.range

/-- The ranges of the suffix table in a block, or the one error that reading it gives. -/
def rangesOf (r : RangeFile) (id : UInt32) : List (Except Error CellRange) :=
  match r.prefixTable (id - r.format.params.blockOffset) with
  | .ok table => table.entries.map fun entry => .ok entry.range
  | .error error => [.error error]

/-- All stored ranges in the order of their cells.  A suffix table that cannot be read gives one
error in its place. -/
def ranges (r : RangeFile) : List (Except Error CellRange) :=
  (r.table.blockIds.filter (· ≠ Format.headerBlockId)).flatMap r.rangesOf

end RangeFile

end CellIndex
