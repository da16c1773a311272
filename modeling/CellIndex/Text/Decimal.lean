/-!
# Decimal numbers

Reading numbers written in ASCII decimal digits.  At least one digit is needed, zeros in front
change nothing, one sign may stand before the digits, and nothing else is allowed, blanks
included.
-/

namespace CellIndex.Decimal

/-- Whether `c` is one of the ten ASCII digits. -/
def isDigit (c : Char) : Bool :=
  '0' ≤ c && c ≤ '9'

/-- The number that the digits of `text` spell. -/
def value (text : List Char) : Nat :=
  text.foldl (fun n c => n * 10 + (c.toNat - '0'.toNat)) 0

/-- Reads digits alone. -/
def readDigits? (text : List Char) : Option Nat :=
  if !text.isEmpty && text.all isDigit then some (value text) else none

/-- Reads a natural number up to `limit`, which may carry a plus sign. -/
def readNat? (limit : Nat) (text : List Char) : Option Nat :=
  let digits := match text with
    | '+' :: rest => rest
    | _ => text
  (readDigits? digits).filter (· ≤ limit)

/-- Reads a whole number, which may carry a plus or a minus sign. -/
def readInt? (text : List Char) : Option Int :=
  match text with
  | '+' :: rest => (readDigits? rest).map Int.ofNat
  | '-' :: rest => (readDigits? rest).map fun n => -Int.ofNat n
  | _ => (readDigits? text).map Int.ofNat

end CellIndex.Decimal
