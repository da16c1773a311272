import CellIndex.Cell.Token
import CellIndex.Cell.Path

/-!
# Ranges of cells

A half-open range of cells of one level on the curve, with the value that all its cells share, if
there is one.
-/

namespace CellIndex

/-- The cells from `start` up to `stop`, which is left out. -/
structure CellRange where
  /-- The first cell of the range. -/
  start : CellId
  /-- The first cell after the range. -/
  stop : CellId
  /-- The value of every cell of the range. -/
  value : Option UInt32 := none
deriving DecidableEq, Inhabited, Repr

namespace CellRange

/-- Whether the id lies in the range.  Only cells of the range's own level are meant to be asked
for. -/
def Contains (range : CellRange) (id : CellId) : Prop :=
  range.start ≤ id ∧ id < range.stop

instance (range : CellRange) (id : CellId) : Decidable (range.Contains id) :=
  inferInstanceAs (Decidable (_ ∧ _))

/-- The range without its value. -/
def eraseValue (range : CellRange) : CellRange := { range with value := none }

/-- One bound of a range: its token and its path. -/
def boundText (id : CellId) : List Char :=
  id.token ++ " (".toList ++ id.path ++ [')']

/-- The written range: both bounds, and the value if there is one. -/
def text (range : CellRange) : List Char :=
  '[' :: boundText range.start ++ ", ".toList ++ boundText range.stop ++ [')'] ++
    match range.value with
    | none => []
    | some value => " value=".toList ++ Nat.toDigits 10 value.toNat

/-- The written range as a string. -/
def describe (range : CellRange) : String := String.ofList range.text

end CellRange

end CellIndex
