import CellIndex.Command.Value

/-!
# Command line options

Splits the words of a command line into options and other words, from left to right.  The first
fault ends the reading, and so does the option that asks for help: what follows is not looked at.

An option has a long name and may have a letter; if it takes a value, the value follows after an
equals sign, in the next word, or, for a letter, directly.  Letters without values may share a word.
A word that begins with a hyphen is only taken as a value if it is a hyphen alone, or if it follows
an equals sign.  After `--` all words are taken as they are.  No option may be given twice.
-/

namespace CellIndex.Command

/-- What an option is good for. -/
inductive OptionKind
  /-- It asks for help. -/
  | help
  /-- It is given or not. -/
  | flag
  /-- It takes a value. -/
  | value (kind : ValueKind)
deriving DecidableEq, Inhabited, Repr

/-- An option that a command knows. -/
structure OptionSpec where
  /-- The name after two hyphens. -/
  name : String
  /-- The letter after one hyphen. -/
  letter : Option Char := none
  /-- What the option is good for. -/
  kind : OptionKind
deriving DecidableEq, Inhabited, Repr

/-- The words that a command takes. -/
structure CommandSpec where
  /-- The options. -/
  options : List OptionSpec
  /-- The largest number of other words. -/
  others : Nat := 0
deriving DecidableEq, Inhabited, Repr

/-- The words of a command line that have been read. -/
structure Words where
  /-- The names of the options that were given, with their values. -/
  options : List (String × Option Value)
  /-- All other words in their order. -/
  others : List String
deriving DecidableEq, Inhabited, Repr

namespace Words

/-- No words. -/
def empty : Words := ⟨[], []⟩

/-- The words with one more option, which must be new. -/
def withOption (words : Words) (name : String) (value : Option Value) : Option Words :=
  if words.options.any (·.1 = name) then none
  else some { words with options := (name, value) :: words.options }

/-- The words with one more option and its value. -/
def withValue (words : Words) (name : String) (kind : ValueKind) (text : String) :
    Option Words := do
  words.withOption name (some (← kind.read text))

/-- The words with another word that is no option, if the command takes that many. -/
def withOther (spec : CommandSpec) (words : Words) (word : String) : Option Words :=
  if words.others.length < spec.others then some { words with others := words.others ++ [word] }
  else none

/-- Whether an option was given. -/
def has (words : Words) (name : String) : Bool := words.options.any (·.1 = name)

/-- The value of an option, if it was given. -/
def value? (words : Words) (name : String) : Option Value := (words.options.lookup name).join

end Words

/-- Whether a word of its own can be the value of an option. -/
def isValue (word : String) : Bool :=
  match word.toList with
  | '-' :: _ :: _ => false
  | _ => true

/-- How far a word with options leads. -/
inductive Progress
  /-- Help is asked for. -/
  | help
  /-- To the next word. -/
  | words (words : Words)
  /-- To the next word, which is the value of an option. -/
  | pending (words : Words) (name : String) (kind : ValueKind)

/-- Reads the options that the letters of a word stand for.  The last of them may lack its value. -/
def readLetters (spec : CommandSpec) : List Char → Words → Option Progress
  | [], words => some (.words words)
  | letter :: rest, words => do
    let option ← spec.options.find? (·.letter = some letter)
    match option.kind, rest with
    | .help, _ => some .help
    | .flag, rest => readLetters spec rest (← words.withOption option.name none)
    | .value kind, [] => some (.pending words option.name kind)
    | .value kind, '=' :: value => (words.withValue option.name kind (.ofList value)).map .words
    | .value kind, value => (words.withValue option.name kind (.ofList value)).map .words

/-- Reads an option with a long name, which ends before an equals sign. -/
def readLong (spec : CommandSpec) (long : List Char) (words : Words) : Option Progress := do
  let option ← spec.options.find? (·.name = String.ofList (long.takeWhile (· ≠ '=')))
  match option.kind, long.dropWhile (· ≠ '=') with
  | .help, [] => some .help
  | .flag, [] => (words.withOption option.name none).map .words
  | .value kind, [] => some (.pending words option.name kind)
  | .value kind, _ :: value => (words.withValue option.name kind (.ofList value)).map .words
  | _, _ :: _ => none

/-- Reads a word with options. -/
def readOptions (spec : CommandSpec) (word : List Char) (words : Words) : Option Progress :=
  match word with
  | '-' :: '-' :: long => readLong spec long words
  | '-' :: letters => readLetters spec letters words
  | _ => none

/-- What a command line says. -/
inductive Reading
  /-- Help is asked for. -/
  | help
  /-- It consists of the given words. -/
  | words (words : Words)

/-- Reads the words of a command line after those that have been read already. -/
def readWords (spec : CommandSpec) : List String → Words → Option Reading
  | [], words => some (.words words)
  | word :: rest, words =>
    if word = "--" then (rest.foldlM (Words.withOther spec) words).map .words
    else if isValue word then do
      readWords spec rest (← words.withOther spec word)
    else match readOptions spec word.toList words with
      | none => none
      | some .help => some .help
      | some (.words words) => readWords spec rest words
      | some (.pending words name kind) =>
        match rest with
        | [] => none
        | value :: rest =>
          if isValue value then do
            readWords spec rest (← words.withValue name kind value)
          else none

end CellIndex.Command
