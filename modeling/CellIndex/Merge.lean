import CellIndex.Format.Layout

/-!
# Merging cells into ranges

A region is given as a list of cells of any level up to that of the file, in any order, each with a
value or without.  Merging turns it into the ranges that a file stores: sorted, disjoint, each as
long as its prefix and its record allow.

Every cell covers a *span* of positions.  The spans are sorted and joined in one sweep: a span that
touches or overlaps the last one is joined to it if the values agree; overlapping spans whose
values differ are an error.  The joined spans are then cut at the ends of prefixes and after the
largest length that a record can say.
-/

namespace CellIndex

/-- A cell of a list, with its value if it has one. -/
structure CellEntry where
  /-- The id of the cell. -/
  cell : CellId
  /-- The value. -/
  value : Option UInt32
deriving DecidableEq, Inhabited, Repr

/-- A half-open run of positions that share a value. -/
structure Span where
  /-- The first position. -/
  start : Nat
  /-- The first position after the run. -/
  stop : Nat
  /-- The value. -/
  value : Option UInt32
deriving DecidableEq, Inhabited, Repr

namespace Span

/-- The value that a format keeps of a cell: none if it stores no values. -/
def keptValue (f : Format) (value : Option UInt32) : Option UInt32 :=
  if 0 < f.valueBytes then value else none

/-- The positions that a cell covers. -/
def ofCell (f : Format) (entry : CellEntry) : Except Error Span :=
  let cell := entry.cell
  if ¬ cell.Valid then .error (.invalidInput (.notACell cell))
  else if f.level < cell.level then .error (.invalidInput (.tooFine cell f.level))
  else
    let first := CellId.ofNat (cell.toNat - 2 ^ cell.zeros + CellId.levelMarker f.level)
    let start := f.position first
    .ok
      { start
        stop := start + 4 ^ (f.level - cell.level)
        value := keptValue f entry.value }

/-- Spans are sorted by their first position, then by their end. -/
def le (a b : Span) : Bool := a.start < b.start || (a.start == b.start && a.stop ≤ b.stop)

/-- Joins sorted spans, of which `last` is the first or what has been joined so far. -/
def joinFrom (f : Format) (last : Span) : List Span → Except Error (List Span)
  | [] => .ok [last]
  | span :: rest =>
    if span.start < last.stop ∧ span.value ≠ last.value then
      .error (.invalidInput (.conflict (f.cellAt span.start) span.value last.value))
    else if span.start ≤ last.stop ∧ span.value = last.value then
      joinFrom f { last with stop := max last.stop span.stop } rest
    else (joinFrom f span rest).map (last :: ·)

/-- Joins sorted spans. -/
def join (f : Format) : List Span → Except Error (List Span)
  | [] => .ok []
  | first :: rest => joinFrom f first rest

/-- The first position after the prefix that a position lies in. -/
def prefixEnd (f : Format) (position : Nat) : Nat :=
  (position / 2 ^ f.suffixBits + 1) * 2 ^ f.suffixBits

/-- Where the range that begins at `start` has to end, for a span that ends at `stop`. -/
def cut (f : Format) (start stop : Nat) : Nat :=
  min (min stop (prefixEnd f start)) (start + f.maxLength)

theorem lt_prefixEnd (f : Format) (position : Nat) : position < prefixEnd f position := by
  have hp : 0 < 2 ^ f.suffixBits := Nat.two_pow_pos _
  have hd := Nat.div_add_mod position (2 ^ f.suffixBits)
  have hm := Nat.mod_lt position hp
  rw [prefixEnd, Nat.add_mul, Nat.mul_comm, Nat.one_mul]
  omega

/-- Cutting makes progress. -/
theorem lt_cut {f : Format} {start stop : Nat} (h : start < stop) : start < cut f start stop := by
  have h1 := lt_prefixEnd f start
  have h2 := f.maxLength_pos
  unfold cut
  omega

/-- The ranges of a span, from `start` on. -/
def rangesFrom (f : Format) (value : Option UInt32) (start stop : Nat) : List CellRange :=
  if start < stop then
    let next := cut f start stop
    { start := f.cellAt start, stop := f.cellAt next, value } :: rangesFrom f value next stop
  else []
termination_by stop - start
decreasing_by
  have := lt_cut (f := f) ‹start < stop›
  omega

/-- The ranges of a span. -/
def ranges (f : Format) (span : Span) : List CellRange :=
  rangesFrom f span.value span.start span.stop

end Span

/-- The ranges that the cells of a list cover. -/
def mergeCells (f : Format) (cells : List CellEntry) : Except Error (List CellRange) := do
  let spans ← cells.mapM (Span.ofCell f)
  let joined ← Span.join f (spans.mergeSort Span.le)
  return joined.flatMap (Span.ranges f)

end CellIndex
