import CellIndex.Folder
import CellIndex.RangeFile.Builder

/-!
# Writing range files into a folder

A writer builds a range file that appears at its target when it is closed.  Until then a temporary
file stands beside the target.  The first failure removes it, and from then on the writer refuses
everything.
-/

namespace CellIndex

/-- A range file on its way to a folder. -/
structure RangeWriter where
  /-- Where the file is to appear. -/
  target : Path
  /-- The format of the file. -/
  format : Format
  /-- What has been built so far, unless the writer has failed. -/
  builder : Option RangeBuilder

namespace RangeWriter

/-- Starts a range file. -/
def create (folder : Folder) (target : Path) (format : Format) :
    Except Error (RangeWriter × Folder) :=
  (folder.reserve target).map fun folder =>
    ({ target, format, builder := some (.new format) }, folder)

/-- The error of a writer that has failed before. -/
def unusable : Error := .invalidArgument .writerUnusable

/-- Writes a batch of ranges. -/
def write (w : RangeWriter) (folder : Folder) (ranges : List CellRange) :
    Except Error Unit × RangeWriter × Folder :=
  match w.builder with
  | none => (.error unusable, w, folder)
  | some builder =>
    match builder.add ranges with
    | .ok builder => (.ok (), { w with builder := some builder }, folder)
    | .error error => (.error error, { w with builder := none }, folder.abandon w.target)

/-- Finishes the file and lets it appear at its target. -/
def close (w : RangeWriter) (folder : Folder) (timestamp : Int64) : Except Error Unit × Folder :=
  match w.builder with
  | none => (.error unusable, folder)
  | some builder =>
    match builder.finish with
    | .ok table => folder.publish w.target (table.image timestamp)
    | .error error => (.error error, folder.abandon w.target)

/-- Gives the file up. -/
def drop (w : RangeWriter) (folder : Folder) : Folder :=
  match w.builder with
  | none => folder
  | some _ => folder.abandon w.target

/-- Writes a range file in one batch. -/
def writeFile (folder : Folder) (target : Path) (format : Format) (ranges : List CellRange)
    (timestamp : Int64) : Except Error Unit × Folder :=
  match create folder target format with
  | .error error => (.error error, folder)
  | .ok (writer, folder) =>
    match writer.write folder ranges with
    | (.error error, writer, folder) => (.error error, writer.drop folder)
    | (.ok (), writer, folder) => writer.close folder timestamp

end RangeWriter

end CellIndex
