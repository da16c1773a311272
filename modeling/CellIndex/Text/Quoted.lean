import CellIndex.Text.Hexadecimal
import CellIndex.Text.Shown

/-!
# Quoted texts

Messages quote the texts that they are about: between double quotes, with a backslash before a
quote or a backslash, short escapes for tabulator, line ends and the null character, and the number
of any other character that cannot be shown.
-/

namespace CellIndex.Quoted

/-- A character spelled by its number. -/
def escapeNumber (c : Char) : List Char :=
  ['\\', 'u', '\x7b'] ++ Hexadecimal.shortest c.toNat ++ ['\x7d']

/-- One character of a quoted text. -/
def encodeChar (c : Char) : List Char :=
  match c with
  | '"' => ['\\', '"']
  | '\\' => ['\\', '\\']
  | '\t' => ['\\', 't']
  | '\r' => ['\\', 'r']
  | '\n' => ['\\', 'n']
  | '\x00' => ['\\', '0']
  | c => if Text.isShown c then [c] else escapeNumber c

/-- The text between its quotes. -/
def encode (text : List Char) : List Char :=
  '"' :: text.flatMap encodeChar ++ ['"']

/-- The text between its quotes, as a string. -/
def quote (text : List Char) : String :=
  String.ofList (encode text)

end CellIndex.Quoted
