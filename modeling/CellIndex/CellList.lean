import CellIndex.Gzip.Member
import CellIndex.Merge
import CellIndex.Text.Blank
import CellIndex.Text.Decimal

/-!
# Cell lists

A cell list is a text with one cell on a line, in decimal or as a token, followed by a comma and a
value if the cell has one.  What stands after a `#` is a comment, blanks around cells and values do
not count, and lines without a cell are skipped.

```text
# comment
5764607523034234880
5764607523034234881, 7
```

The first line that is wrong ends the reading and is named by its number.  A line that is no UTF-8
text cannot be read at all.  A list may stand in a compressed file; the lines before a fault of that
file are still read.
-/

namespace CellIndex

/-- How cells are written in a list. -/
inductive CellFormat
  /-- As decimal numbers. -/
  | decimal
  /-- As tokens. -/
  | token
deriving DecidableEq, Inhabited, Repr

namespace CellFormat

/-- The way of writing with the given name, in letters of either case. -/
def ofName (name : List Char) : Except Error CellFormat :=
  let name := name.map Char.toLower
  if name = "decimal".toList ∨ name = "id".toList then .ok .decimal
  else if name = "token".toList ∨ name = "hex".toList then .ok .token
  else .error (.invalidArgument (.cellFormat name))

/-- The id that a text names. -/
def read (format : CellFormat) (text : List Char) : Except InputFault CellId :=
  match format with
  | .decimal => (Decimal.readNat? (2 ^ 64 - 1) text).elim (.error (.cellId text)) (.ok ∘ .ofNat)
  | .token => (CellId.ofToken? text).elim (.error (.token text)) .ok

end CellFormat

namespace CellList

/-- A line of a file. -/
structure Line where
  /-- The bytes of the line without its line feed. -/
  bytes : Bytes
  /-- Whether a line feed ends the line. -/
  ended : Bool
deriving DecidableEq, Inhabited, Repr

/-- The byte that ends a line. -/
def lineFeed : UInt8 := 10

/-- The lines of a file that begins with `byte` and goes on with `lines`. -/
def consByte (byte : UInt8) (lines : List Line) : List Line :=
  if byte = lineFeed then ⟨[], true⟩ :: lines
  else match lines with
    | [] => [⟨[byte], false⟩]
    | line :: rest => ⟨byte :: line.bytes, line.ended⟩ :: rest

/-- The lines of a file.  Bytes after the last line feed are a line as well. -/
def lines (bytes : Bytes) : List Line := bytes.foldr consByte []

/-- The characters that bytes spell in UTF-8. -/
def textOf (bytes : Bytes) : Option (List Char) :=
  (String.fromUTF8? bytes.toByteArray).map String.toList

/-- Reads the value of a cell. -/
def readValue (text : List Char) : Except InputFault UInt32 :=
  (Decimal.readNat? (2 ^ 32 - 1) text).elim (.error (.value text)) (.ok ∘ UInt32.ofNat)

/-- Reads a cell and its value, which follows the first comma. -/
def readEntry (format : CellFormat) (text : List Char) : Except InputFault CellEntry :=
  match text.dropWhile (· ≠ ',') with
  | [] => do
    let cell ← format.read text
    return { cell, value := none }
  | _ :: after => do
    let cell ← format.read (Text.trim (text.takeWhile (· ≠ ',')))
    let value ← readValue (Text.trim after)
    return { cell, value := some value }

/-- Reads a line, which may hold nothing but blanks and a comment. -/
def readLine (format : CellFormat) (line : List Char) : Except InputFault (Option CellEntry) :=
  let text := Text.trim (line.takeWhile (· ≠ '#'))
  if text.isEmpty then .ok none else (readEntry format text).map some

/-- Reads lines, of which the first has the given number.  If a fault follows the lines, a last line
that is not ended is not read. -/
def readLines (format : CellFormat) (whole : Bool) :
    (number : Nat) → List Line → Except Error (List CellEntry)
  | _, [] => if whole then .ok [] else .error .io
  | number, line :: rest =>
    if !line.ended && !whole then .error .io
    else match textOf line.bytes with
      | none => .error .io
      | some text =>
        match readLine format text with
        | .error fault => .error (.invalidInput (.line number fault))
        | .ok entry => (readLines format whole (number + 1) rest).map (entry.toList ++ ·)

/-- Reads the list in a stream. -/
def ofStream (format : CellFormat) (stream : Gzip.Stream) : Except Error (List CellEntry) :=
  readLines format stream.whole 1 (lines stream.bytes)

/-- Reads the list in a run of bytes. -/
def ofBytes (format : CellFormat) (bytes : Bytes) : Except Error (List CellEntry) :=
  ofStream format ⟨bytes, true⟩

/-- Reads the list in a file, which may be compressed. -/
def ofFile (format : CellFormat) (bytes : Bytes) : Except Error (List CellEntry) :=
  if Gzip.isCompressed bytes then ofStream format (Gzip.expand bytes) else ofBytes format bytes

end CellList

end CellIndex
