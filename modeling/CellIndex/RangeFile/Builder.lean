import CellIndex.Format.Header
import CellIndex.SuffixTable.Basic
import CellIndex.Table.Builder

/-!
# Building range files

Ranges are added in batches.  All ranges of all batches have to be sorted and disjoint, every range
has to stay inside its prefix and to fit a record, and a later batch may not come back to a prefix
that an earlier one has written.

`RangeBuilder.checkRange` holds these rules; a batch whose ranges all obey them is cut into groups
of one prefix each, and every group becomes a suffix table.
-/

namespace CellIndex

/-- A range file that is being built. -/
structure RangeBuilder where
  /-- The format of the file. -/
  format : Format
  /-- The suffix tables so far. -/
  tables : Builder
  /-- The last prefix that has been written. -/
  lastPrefix : Option UInt32
  /-- Where the last range ends. -/
  lastStop : Option CellId

namespace RangeBuilder

/-- A file without ranges. -/
def new (format : Format) : RangeBuilder :=
  { format, tables := .empty, lastPrefix := none, lastStop := none }

/-- Checks a range that comes after another one ending at `lastStop`, in a batch that follows the
table of `lastPrefix`. -/
def checkRange (f : Format) (lastPrefix : Option UInt32) (lastStop : Option CellId)
    (range : CellRange) : Except Error Unit :=
  let start := range.start
  let stop := range.stop
  let tablePrefix := f.prefixOf start
  let length := f.rangeLength start stop
  let invalid := fun fault => Except.error (.invalidRange range fault)
  if stop ≤ start then invalid .empty
  else if ¬ f.IsCell start ∨ ¬ f.IsBoundary stop then invalid (.offLevel f.level)
  else if lastStop.any (start < ·) then invalid .unsorted
  else if lastPrefix.any (tablePrefix ≤ ·) then invalid (.tableWritten tablePrefix)
  else if f.maxSuffix + 1 < f.suffixOf start + length then invalid (.pastTable tablePrefix)
  else if f.maxLength < length then invalid (.tooLong length f.maxLength)
  else if f.valueBytes = 0 then .ok ()
  else match range.value with
    | none => .error (.invalidArgument (.rangeWithoutValue range))
    | some value =>
      if f.maxValue < value.toNat then
        .error (.invalidArgument (.rangeValue range value.toNat f.maxValue))
      else .ok ()

/-- Checks the ranges of a batch in their order. -/
def checkBatch (f : Format) (lastPrefix : Option UInt32) :
    (lastStop : Option CellId) → List CellRange → Except Error Unit
  | _, [] => .ok ()
  | lastStop, range :: rest =>
    match checkRange f lastPrefix lastStop range with
    | .error error => .error error
    | .ok () => checkBatch f lastPrefix (some range.stop) rest

/-- The ranges of a batch, cut wherever the prefix changes. -/
def groups (f : Format) (ranges : List CellRange) : List (List CellRange) :=
  ranges.splitBy fun a b => f.prefixOf a.start == f.prefixOf b.start

/-- The suffix table of a group, as a block. -/
def tableBlock (f : Format) (tablePrefix : UInt32) (group : List CellRange) : Except Error Block :=
  (EncodedTable.ofRanges f tablePrefix group).map fun table =>
    { id := f.blockId tablePrefix, shared := table.shared, data := table.data }

/-- Adds the suffix table of a group. -/
def addGroup (b : RangeBuilder) (group : List CellRange) : Except Error RangeBuilder :=
  match group with
  | [] => .ok b
  | first :: _ => do
    let tablePrefix := b.format.prefixOf first.start
    let block ← tableBlock b.format tablePrefix group
    let tables ← b.tables.add block
    return { b with tables, lastPrefix := some tablePrefix }

/-- Adds a batch of ranges. -/
def add (b : RangeBuilder) (ranges : List CellRange) : Except Error RangeBuilder := do
  checkBatch b.format b.lastPrefix b.lastStop ranges
  let b ← (groups b.format ranges).foldlM addGroup b
  return { b with lastStop := (ranges.getLast?.map CellRange.stop).or b.lastStop }

/-- The block that tells the format. -/
def headerBlock (f : Format) : Block where
  id := Format.headerBlockId
  shared := []
  data := f.header

/-- The table of the finished file: the suffix tables and the header block. -/
def finish (b : RangeBuilder) : Except Error Builder := b.tables.add (headerBlock b.format)

end RangeBuilder

end CellIndex
