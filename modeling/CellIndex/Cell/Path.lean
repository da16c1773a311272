import CellIndex.Cell.Basic
import CellIndex.Text.Hexadecimal

/-!
# Cell paths

The way from a face down to a cell, written out: the number of the face, a slash, and one digit
from `0` to `3` for each level, as in `1/0231`.  Ids that are no cells are written with all their
hexadecimal digits.
-/

namespace CellIndex.CellId

/-- Which of the four children of its ancestor above the cell lies in, at a level from one on. -/
def childAt (id : CellId) (level : Nat) : Nat :=
  id.toNat / 2 ^ (2 * (maxLevel - level) + 1) % 4

/-- The children on the way down to the cell, the first below the face in front. -/
def children (id : CellId) : List Nat :=
  (List.range id.level).map fun k => id.childAt (k + 1)

/-- The written path of a cell, or the digits of an id that is no cell. -/
def path (id : CellId) : List Char :=
  if id.Valid then
    Nat.digitChar id.face :: '/' :: id.children.map Nat.digitChar
  else
    "invalid:".toList ++ Hexadecimal.encode 16 id.toNat

/-- The written path as a string. -/
def describe (id : CellId) : String := String.ofList id.path

end CellIndex.CellId
