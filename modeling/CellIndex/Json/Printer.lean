/-!
# Writing JSON

Records of numbers and truth values are written on one line without blanks, or one member a line
with an indentation of two blanks for each level.  Keys are plain words that need no escapes.
-/

namespace CellIndex.Json

/-- A value of a record. -/
inductive Scalar
  /-- A natural number. -/
  | nat (n : Nat)
  /-- A truth value. -/
  | bool (b : Bool)
deriving DecidableEq, Inhabited, Repr

/-- A value as it is written. -/
def Scalar.text : Scalar → List Char
  | nat n => Nat.toDigits 10 n
  | bool true => "true".toList
  | bool false => "false".toList

/-- A key between its quotes. -/
def keyText (key : String) : List Char := '"' :: key.toList ++ ['"']

/-- A record on one line. -/
def compact (members : List (String × Scalar)) : List Char :=
  let texts := members.map fun (key, value) => keyText key ++ ':' :: value.text
  '\x7b' :: [','].intercalate texts ++ ['\x7d']

/-- Members on lines of their own, inside braces.  The closing brace is indented by `indent`
blanks, and the members by two more. -/
def block (indent : Nat) (members : List (String × List Char)) : List Char :=
  let margin := List.replicate indent ' '
  let texts := members.map fun (key, value) =>
    margin ++ "  ".toList ++ keyText key ++ ": ".toList ++ value
  "\x7b\n".toList ++ ",\n".toList.intercalate texts ++ '\n' :: margin ++ ['\x7d']

end CellIndex.Json
