import CellIndex.Command.Request
import CellIndex.Format.Json
import CellIndex.RangeFile.Basic
import CellIndex.RangeFile.Writer

/-!
# Running commands

A command is a function of the folder that it works in.  It gives back the folder as it leaves it,
what it prints, and why it failed, if it did.
-/

namespace CellIndex.Command

/-- Why a command failed. -/
inductive Failure
  /-- An operation failed. -/
  | error (cause : Error)
  /-- The format file is for another level than the one asked for. -/
  | otherLevel (file : String) (found wanted : Nat)
deriving DecidableEq, Repr

/-- A failure in words.  What is wrong with a format is said without a word about its text. -/
def Failure.message : Failure → String
  | .error (.json fault) => fault.message
  | .error e => e.message
  | .otherLevel file found wanted =>
    "format file " ++ Quoted.quote file.toList ++ s!" is for level {found}, not {wanted}"

/-- What a command leaves behind besides the folder. -/
structure Outcome where
  /-- What it has printed. -/
  output : String
  /-- Why it failed, if it did. -/
  failure : Option Failure := none
deriving Repr

/-- The outcome of a command that failed after printing something. -/
def Outcome.failed (output : String) (error : Error) : Outcome :=
  { output, failure := some (.error error) }

/-- The exit code: one after a failure. -/
def Outcome.code (o : Outcome) : Nat := if o.failure.isSome then 1 else 0

/-- A line of output. -/
def line (text : String) : String := text ++ "\n"

/-- A file name in a line of output. -/
def quotePath (path : String) : String := Quoted.quote path.toList

/-- The name and the version of the program. -/
def versionText : String := "sats2range-gen 0.1.0"

/-- A summary of the commands. -/
def helpText : String :=
  "Usage: sats2range-gen <create|lookup|info|dump> [OPTIONS]"

/-! ## Creating a range file -/

/-- The format that is asked for: the ready-made one of the level, or that of a file, which must be
for the same level. -/
def loadFormat (folder : Folder) (o : CreateOptions) : Except Failure Format :=
  match o.formatFile with
  | none =>
    (Format.preset o.level o.allowedList o.valueBytes o.version).mapError (.error ·.error)
  | some file => do
    let bytes ← (folder.read (.ofString file)).mapError .error
    match CellList.textOf bytes with
    | none => .error (.error .io)
    | some text =>
      let format ← (Format.ofJson text).mapError .error
      if format.level ≠ o.level.toNat then
        .error (.otherLevel file format.level o.level.toNat)
      else return format

/-- The number of cells in the list, and the ranges that they cover. -/
def loadRanges (folder : Folder) (o : CreateOptions) (format : Format) :
    Except Error (Nat × List CellRange) := do
  let bytes ← folder.read (.ofString o.inputFile)
  let cells ← CellList.ofFile o.cellFormat bytes
  let ranges ← mergeCells format cells
  return (cells.length, ranges)

/-- Builds a range file from a cell list. -/
def create (folder : Folder) (timestamp : Int64) (o : CreateOptions) : Folder × Outcome :=
  let report := fun text => if o.verbose then line text else ""
  match loadFormat folder o with
  | .error failure => (folder, { output := "", failure := some failure })
  | .ok format =>
    let output := report ("Reading input file: " ++ quotePath o.inputFile)
    match loadRanges folder o format with
    | .error error => (folder, .failed output error)
    | .ok (count, ranges) =>
      let output := output ++ report s!"Parsed {count} cells into {ranges.length} ranges" ++
        report ("Writing output file: " ++ quotePath o.outputFile)
      match RangeWriter.writeFile folder (.ofString o.outputFile) format ranges timestamp with
      | (.error error, folder) => (folder, .failed output error)
      | (.ok (), folder) =>
        let success :=
          "Successfully created " ++ quotePath o.inputFile ++ " -> " ++ quotePath o.outputFile
        (folder, { output := output ++ line success })

/-! ## Reading a range file -/

/-- Opens a range file. -/
def openFile (folder : Folder) (file : String) : Except Error RangeFile := do
  let bytes ← folder.read (.ofString file)
  RangeFile.ofBytes bytes

/-- Finds the range of a cell. -/
def lookup (folder : Folder) (file cell : String) (cellFormat : CellFormat) : Outcome :=
  let result : Except Error String := do
    let reader ← openFile folder file
    let id ← (cellFormat.read cell.toList).mapError .invalidInput
    let range ← reader.find id
    let found := match range with
      | some range => range.describe
      | none => "not found"
    return line (cell ++ " (" ++ id.describe ++ "): " ++ found)
  match result with
  | .ok output => { output }
  | .error error => .failed "" error

/-- The description of a range file: its format, the largest length of a range, and the number of
its suffix tables.  Keys are sorted. -/
def summary (r : RangeFile) : String :=
  let members := r.format.params.members.mergeSort fun a b => a.1 ≤ b.1
  let format := Json.block 2 (members.map fun (key, value) => (key, value.text))
  String.ofList <| Json.block 0
    [("format", format),
      ("max_range_length", (Json.Scalar.nat r.format.maxLength).text),
      ("suffix_tables", (Json.Scalar.nat r.tableCount).text)]

/-- Shows the format of a range file. -/
def info (folder : Folder) (file : String) : Outcome :=
  match openFile folder file with
  | .ok reader => { output := line (summary reader) }
  | .error error => .failed "" error

/-- Shows ranges up to the first error, and at the end their number, beginning to count with
`count`. -/
def dumpRanges : (count : Nat) → List (Except Error CellRange) → Outcome
  | count, [] => { output := line s!"{count} ranges" }
  | _, .error error :: _ => .failed "" error
  | count, .ok range :: rest =>
    let outcome := dumpRanges (count + 1) rest
    { outcome with output := line range.describe ++ outcome.output }

/-- Shows the ranges of a range file. -/
def dump (folder : Folder) (file : String) : Outcome :=
  match openFile folder file with
  | .ok reader => dumpRanges 0 reader.ranges
  | .error error => .failed "" error

/-- Does what a request asks for. -/
def run (folder : Folder) (timestamp : Int64) : Request → Folder × Outcome
  | .version => (folder, { output := line versionText })
  | .help => (folder, { output := line helpText })
  | .create options => create folder timestamp options
  | .lookup file cell cellFormat => (folder, lookup folder file cell cellFormat)
  | .info file => (folder, info folder file)
  | .dump file => (folder, dump folder file)

/-- Does what the words of a command line ask for.  There is no outcome if they ask for nothing
known. -/
def execute (folder : Folder) (timestamp : Int64) (words : List String) : Folder × Option Outcome :=
  match Request.ofWords? words with
  | none => (folder, none)
  | some request =>
    let (folder, outcome) := run folder timestamp request
    (folder, some outcome)

/-- The exit code of a command line: two if it asks for nothing known. -/
def exitCode (outcome : Option Outcome) : Nat := outcome.elim 2 Outcome.code

end CellIndex.Command
