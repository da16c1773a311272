import CellIndex.Block
import CellIndex.Search
import CellIndex.SuffixTable.Record
import CellIndex.SuffixTable.SharedData

/-!
# Suffix tables

The ranges of one prefix, ascending by their first cell.  A cell is looked up by a binary search
for the last record that begins at or before it, and belongs to the range of that record if the
record reaches so far.

`SuffixTable f` is a table that has been read, `PrefixTable f` what a file says about a prefix: its
table, or that there is none.  `EncodedTable.ofRanges` writes the ranges of a prefix down.
-/

namespace CellIndex

/-- A range found in a suffix table. -/
structure Entry where
  /-- The place of the range in its table, counted from zero. -/
  index : Nat
  /-- The range. -/
  range : CellRange
deriving DecidableEq, Inhabited, Repr

/-- The ranges of one prefix, as read from a block. -/
structure SuffixTable (f : Format) where
  /-- The prefix and the values of the ranges. -/
  shared : SharedData
  /-- The ranges in stored order. -/
  records : Array Record
deriving Repr

namespace SuffixTable

variable {f : Format}

/-- Reads the suffix table in a block.  There must be at least one record, no bytes left over, and
at most one value or one for each record. -/
def ofBlock (f : Format) (block : Block) : Except Error (SuffixTable f) :=
  match SharedData.decode f block.shared with
  | .error error => .error error
  | .ok shared =>
    let size := block.data.length
    if size = 0 ∨ size % f.recordBytes ≠ 0 then
      .error (.corrupt (.recordSize block.id size f.recordBytes))
    else
      let count := size / f.recordBytes
      if 1 < shared.values.size ∧ shared.values.size ≠ count then
        .error (.corrupt (.valueCount block.id count shared.values.size))
      else .ok ⟨shared, (Record.decodeAll f block.data).toArray⟩

/-- The prefix of the table. -/
def tablePrefix (t : SuffixTable f) : UInt32 := t.shared.tablePrefix

/-- The range that a record of the table stands for. -/
def entry (t : SuffixTable f) (index : Nat) (r : Record) : Entry :=
  let base := t.tablePrefix.toNat * 2 ^ f.suffixBits
  { index
    range :=
      { start := f.cellAt (base + r.start)
        stop := f.cellAt (base + r.start + r.length)
        value := t.shared.value? index } }

/-- Whether the record at `index` begins at or before a suffix. -/
def startsBy (t : SuffixTable f) (suffix index : Nat) : Bool :=
  match t.records[index]? with
  | some r => r.start ≤ suffix
  | none => false

/-- The range that holds the cell, or the cell above an id of a finer level. -/
def find (t : SuffixTable f) (id : CellId) : Option Entry :=
  if f.prefixOf id ≠ t.tablePrefix then none
  else
    let suffix := f.suffixOf id
    match Search.bisect (t.startsBy suffix) 0 t.records.size with
    | 0 => none
    | index + 1 =>
      match t.records[index]? with
      | none => none
      | some r => if suffix - r.start < r.length then some (t.entry index r) else none

/-- The range at a place of the table. -/
def entryAt (t : SuffixTable f) (index : Nat) : Except Error Entry :=
  match t.records[index]? with
  | some r => .ok (t.entry index r)
  | none => .error (.indexOutOfBounds index t.records.size)

/-- All ranges of the table. -/
def entries (t : SuffixTable f) : List Entry :=
  t.records.toList.mapIdx t.entry

end SuffixTable

/-- What a file holds for a prefix. -/
inductive PrefixTable (f : Format)
  /-- A table with at least one range. -/
  | populated (table : SuffixTable f)
  /-- No table: no range begins with the prefix. -/
  | unpopulated (tablePrefix : UInt32)
deriving Repr

namespace PrefixTable

variable {f : Format}

/-- The prefix. -/
def tablePrefix : PrefixTable f → UInt32
  | populated table => table.tablePrefix
  | unpopulated tablePrefix => tablePrefix

/-- Whether there is a table. -/
def isPopulated : PrefixTable f → Bool
  | populated _ => true
  | unpopulated _ => false

/-- The range that holds the cell. -/
def find : PrefixTable f → CellId → Option Entry
  | populated table, id => table.find id
  | unpopulated _, _ => none

/-- The range at a place of the table. -/
def entryAt : PrefixTable f → Nat → Except Error Entry
  | populated table, index => table.entryAt index
  | unpopulated _, index => .error (.indexOutOfBounds index 0)

/-- The number of ranges. -/
def size : PrefixTable f → Nat
  | populated table => table.records.size
  | unpopulated _ => 0

/-- The number of stored values. -/
def valueCount : PrefixTable f → Nat
  | populated table => table.shared.values.size
  | unpopulated _ => 0

/-- The value of the range at `index`. -/
def value? : PrefixTable f → Nat → Option UInt32
  | populated table, index => table.shared.value? index
  | unpopulated _, _ => none

/-- All ranges. -/
def entries : PrefixTable f → List Entry
  | populated table => table.entries
  | unpopulated _ => []

end PrefixTable

/-- A suffix table written down, without the number of its block. -/
structure EncodedTable where
  /-- The shared data of the block. -/
  shared : Bytes
  /-- The records. -/
  data : Bytes
deriving DecidableEq, Inhabited, Repr

namespace EncodedTable

/-- The record of a range, if the format can say its length. -/
def recordOf (f : Format) (range : CellRange) : Except Error Record :=
  let length := f.rangeLength range.start range.stop
  if length = 0 ∨ f.maxLength < length then
    .error (.invalidRange range (.recordLength length f.maxLength))
  else .ok ⟨f.suffixOf range.start, length⟩

/-- The values of the ranges if all of them have one, and no values otherwise. -/
def valuesOf (ranges : List CellRange) : List UInt32 :=
  (ranges.mapM CellRange.value).getD []

/-- The table of the ranges of a prefix, which are taken to be sorted and to lie in the prefix. -/
def ofRanges (f : Format) (tablePrefix : UInt32) (ranges : List CellRange) :
    Except Error EncodedTable := do
  let records ← ranges.mapM (recordOf f)
  let shared ← SharedData.encode f tablePrefix (valuesOf ranges)
  return { shared, data := records.flatMap (Record.encode f) }

end EncodedTable

end CellIndex
