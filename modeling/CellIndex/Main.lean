import CellIndex.Command.Run

/-!
# The program

Takes what a command needs from the file system, runs the command on that, and puts the result back.
Nothing is decided here but where bytes come from and where they go.
-/

namespace CellIndex.Program

open CellIndex.Command

/-- What stands at a path of the file system. -/
def nodeAt (path : Path) : IO (Option Node) := do
  try
    return some (.file (← IO.FS.readBinFile path.toString).toList)
  catch _ =>
    let place := (← IO.currentDir) / path.toString
    return if ← place.isDir then some .directory else none

/-- The paths that a request looks at. -/
def paths : Request → List Path
  | .create o => ([o.inputFile, o.outputFile] ++ o.formatFile.toList).map .ofString
  | .lookup file _ _ => [.ofString file]
  | .info file => [.ofString file]
  | .dump file => [.ofString file]
  | .version => []
  | .help => []

/-- The folder that a request works in, as far as it looks at it. -/
def snapshot (request : Request) : IO Folder := do
  let mut folder := Folder.empty
  for path in paths request do
    for place in [path, path.temporary, path.temporary.parent] do
      if let some node ← nodeAt place then
        folder := folder.put place node
  return folder

/-- The time in seconds: that of a file that is made now. -/
def now : IO Int64 :=
  IO.FS.withTempFile fun _ place => return .ofInt (← place.metadata).modified.sec

/-- What a command line works with: the folder and the time, as far as it looks at them. -/
def surroundings (words : List String) : IO (Folder × Int64) :=
  match Request.ofWords? words with
  | none => return (.empty, 0)
  | some request => return (← snapshot request, ← now)

/-- Writes the new contents of a file beside it, and moves them over it. -/
def save (target : Path) (bytes : Bytes) : IO Unit := do
  let beside := target.temporary.toString
  IO.FS.writeBinFile beside (ByteArray.mk bytes.toArray)
  IO.FS.rename beside target.toString

/-- Lets the file that a command line has created appear. -/
def saveResult (words : List String) (folder : Folder) : IO Unit :=
  match Request.ofWords? words with
  | some (.create o) =>
    let target : Path := .ofString o.outputFile
    match folder.get? target with
    | some (.file bytes) => save target bytes
    | _ => return ()
  | _ => return ()

/-- Reports what has come out of a command line. -/
def report : Option Outcome → IO Unit
  | none => IO.eprintln helpText
  | some outcome => do
    IO.print outcome.output
    if let some failure := outcome.failure then
      IO.eprintln ("Error: " ++ failure.message)

end CellIndex.Program

/-- Runs the command line and gives the exit code. -/
def main (words : List String) : IO UInt32 := do
  try
    let (folder, timestamp) ← CellIndex.Program.surroundings words
    let (folder, outcome) := CellIndex.Command.execute folder timestamp words
    let code := CellIndex.Command.exitCode outcome
    if code = 0 then CellIndex.Program.saveResult words folder
    CellIndex.Program.report outcome
    return .ofNat code
  catch error =>
    IO.eprintln s!"Error: {error}"
    return 1
