import CellIndex.Command.Option
import CellIndex.Folder

/-!
# Requests

What a command line asks for.  There are four commands, each with its own options:

* `create` builds a range file from a cell list,
* `lookup` finds the range of a cell,
* `info` shows the format of a range file,
* `dump` shows all its ranges.
-/

namespace CellIndex.Command

/-- What the command `create` is to do. -/
structure CreateOptions where
  /-- The cell list. -/
  inputFile : String
  /-- The level of the range file. -/
  level : UInt8
  /-- Whether the cells of the list are allowed. -/
  allowedList : Bool
  /-- The number of bytes of a value. -/
  valueBytes : UInt8
  /-- The number that the range file carries. -/
  version : UInt32
  /-- A file with a format that takes the place of the ready-made one. -/
  formatFile : Option String
  /-- How cells are written in the list. -/
  cellFormat : CellFormat
  /-- The range file. -/
  outputFile : String
  /-- Whether to report every step. -/
  verbose : Bool
deriving DecidableEq, Inhabited, Repr

/-- What a command line asks for. -/
inductive Request
  /-- The name and the version of the program. -/
  | version
  /-- A summary of the commands. -/
  | help
  /-- A new range file. -/
  | create (options : CreateOptions)
  /-- The range of a cell. -/
  | lookup (file cell : String) (cellFormat : CellFormat)
  /-- The format of a range file. -/
  | info (file : String)
  /-- The ranges of a range file. -/
  | dump (file : String)
deriving DecidableEq, Repr

namespace Words

/-- The path that was given for an option. -/
def path? (words : Words) (name : String) : Option String :=
  (words.value? name).bind Value.path?

/-- The number that was given for an option. -/
def number? (words : Words) (name : String) : Option Nat :=
  (words.value? name).bind Value.number?

/-- The truth value that was given for an option. -/
def truth? (words : Words) (name : String) : Option Bool :=
  (words.value? name).bind Value.truth?

/-- The way of writing cells that was given, which is decimal if none was. -/
def cellFormat (words : Words) : CellFormat :=
  ((words.value? "cell-format").bind Value.cellFormat?).getD .decimal

end Words

/-! ## Commands -/

/-- The option that asks for help. -/
def helpOption : OptionSpec := { name := "help", letter := some 'h', kind := .help }

/-- The option that names a range file. -/
def fileOption : OptionSpec := { name := "file", letter := some 'f', kind := .value .path }

/-- The option that says how cells are written. -/
def cellFormatOption : OptionSpec := { name := "cell-format", kind := .value .cellFormat }

/-- The words of the command `create`. -/
def createSpec : CommandSpec where
  options :=
    [{ name := "input-file", kind := .value .path },
      { name := "s2-level", kind := .value (.number 255) },
      { name := "is-allowed-list", kind := .value .truth },
      { name := "entry-value-byte-size", kind := .value (.number 255) },
      { name := "version-number", kind := .value (.number (2 ^ 32 - 1)) },
      { name := "format-file", kind := .value .path },
      cellFormatOption,
      { name := "output-file", kind := .value .path },
      { name := "verbose", letter := some 'v', kind := .flag },
      helpOption]

/-- The words of the command `lookup`: options and a cell. -/
def lookupSpec : CommandSpec where
  options := [fileOption, cellFormatOption, helpOption]
  others := 1

/-- The words of the commands `info` and `dump`. -/
def fileSpec : CommandSpec where
  options := [fileOption, helpOption]

/-- What `create` is to do. -/
def create? (words : Words) : Option Request := do
  let options : CreateOptions :=
    { inputFile := ← words.path? "input-file"
      level := UInt8.ofNat (← words.number? "s2-level")
      allowedList := (words.truth? "is-allowed-list").getD true
      valueBytes := UInt8.ofNat ((words.number? "entry-value-byte-size").getD 0)
      version := UInt32.ofNat ((words.number? "version-number").getD 0)
      formatFile := words.path? "format-file"
      cellFormat := words.cellFormat
      outputFile := ← words.path? "output-file"
      verbose := words.has "verbose" }
  return .create options

/-- What `lookup` is to do. -/
def lookup? (words : Words) : Option Request := do
  return .lookup (← words.path? "file") (← words.others.head?) words.cellFormat

/-- What a command is to do that only needs a file. -/
def file? (request : String → Request) (words : Words) : Option Request :=
  (words.path? "file").map request

/-- The names of the commands. -/
def commandNames : List String := ["create", "lookup", "info", "dump", "help"]

/-- Help on all commands or on one. -/
def help? : List String → Option Request
  | [] => some .help
  | [name] => if name ∈ commandNames then some .help else none
  | _ => none

/-- What the words after a command ask for. -/
def ofWords? (spec : CommandSpec) (request? : Words → Option Request) (words : List String) :
    Option Request := do
  match ← readWords spec words .empty with
  | .help => return .help
  | .words words => request? words

/-- What the words of a command line ask for, if they ask for anything. -/
def Request.ofWords? : List String → Option Request
  | [] => none
  | word :: rest =>
    if word = "create" then Command.ofWords? createSpec create? rest
    else if word = "lookup" then Command.ofWords? lookupSpec lookup? rest
    else if word = "info" then Command.ofWords? fileSpec (file? .info) rest
    else if word = "dump" then Command.ofWords? fileSpec (file? .dump) rest
    else if word = "help" then help? rest
    else if word = "--version" ∨ word.toList.take 2 = ['-', 'V'] then some .version
    else if word = "--help" ∨ word.toList.take 2 = ['-', 'h'] then some .help
    else none

end CellIndex.Command
