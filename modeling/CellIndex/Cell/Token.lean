import CellIndex.Cell.Basic
import CellIndex.Text.Hexadecimal

/-!
# Cell tokens

The short written form of an id: its sixteen hexadecimal digits without the zeros at the end.  The
id zero, of which nothing would be left, is written `X`.

A token is read with its digits at the left, so the zeros that were dropped come back.  Zeros at
the end of a token and letters of either case are accepted on reading.
-/

namespace CellIndex.CellId

/-- The digits of an id without the zeros at the end, `X` for the id zero. -/
def token (id : CellId) : List Char :=
  if id.toNat = 0 then ['X']
  else ((Hexadecimal.encode 16 id.toNat).reverse.dropWhile (· = '0')).reverse

/-- The id that a token stands for: one to sixteen digits, or the letter `X` of either case. -/
def ofToken? (text : List Char) : Option CellId :=
  if text = ['X'] ∨ text = ['x'] then some (ofNat 0)
  else if text.isEmpty ∨ 16 < text.length then none
  else (Hexadecimal.decode? text).map fun n => ofNat (n * 16 ^ (16 - text.length))

end CellIndex.CellId
