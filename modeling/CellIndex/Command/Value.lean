import CellIndex.CellList

/-!
# Values of options

The values that can be given on a command line, and how a text is read as a value of a kind.
-/

namespace CellIndex.Command

/-- The value of an option. -/
inductive Value
  /-- The text of a path. -/
  | path (text : String)
  /-- A number. -/
  | number (n : Nat)
  /-- A truth value. -/
  | truth (b : Bool)
  /-- A way of writing cells. -/
  | cellFormat (format : CellFormat)
deriving DecidableEq, Inhabited, Repr

namespace Value

/-- The text of a path. -/
def path? : Value → Option String
  | path text => some text
  | _ => none

/-- A number. -/
def number? : Value → Option Nat
  | number n => some n
  | _ => none

/-- A truth value. -/
def truth? : Value → Option Bool
  | truth b => some b
  | _ => none

/-- A way of writing cells. -/
def cellFormat? : Value → Option CellFormat
  | cellFormat format => some format
  | _ => none

end Value

/-- What the values of an option have in common. -/
inductive ValueKind
  /-- They are paths, which are not empty. -/
  | path
  /-- They are whole numbers from zero up to `limit`. -/
  | number (limit : Nat)
  /-- They are truth values. -/
  | truth
  /-- They are ways of writing cells. -/
  | cellFormat
deriving DecidableEq, Inhabited, Repr

/-- The value of a kind that a text stands for. -/
def ValueKind.read (text : String) : ValueKind → Option Value
  | path => if text = "" then none else some (.path text)
  | number limit => do
    let n ← Decimal.readInt? text.toList
    if 0 ≤ n ∧ n ≤ Int.ofNat limit then some (.number n.toNat) else none
  | truth =>
    if text = "true" then some (.truth true)
    else if text = "false" then some (.truth false)
    else none
  | cellFormat => (CellFormat.ofName text.toList).toOption.map .cellFormat

end CellIndex.Command
