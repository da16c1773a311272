import CellIndex.Folder
import CellIndex.Table.Builder

/-!
# Writing tables into a folder

A writer holds a table that is being built and the path at which it is to appear.  From its
creation on a temporary file stands beside the target; the target itself is not touched before
`finish` has succeeded.
-/

namespace CellIndex

/-- A table on its way to a file. -/
structure TableWriter where
  /-- Where the table is to appear. -/
  target : Path
  /-- The blocks so far. -/
  builder : Builder

namespace TableWriter

/-- Starts a table. -/
def create (folder : Folder) (target : Path) : Except Error (TableWriter × Folder) :=
  (folder.reserve target).map fun folder => (⟨target, .empty⟩, folder)

/-- The writer with one more block. -/
def writeBlock (w : TableWriter) (block : Block) : Except Error TableWriter :=
  (w.builder.add block).map fun builder => { w with builder }

/-- The number of blocks so far. -/
def blockCount (w : TableWriter) : Nat := w.builder.blockCount

/-- Lets the table appear at its target. -/
def finish (w : TableWriter) (folder : Folder) (timestamp : Int64) : Except Error Unit × Folder :=
  folder.publish w.target (w.builder.image timestamp)

/-- Gives the table up. -/
def discard (w : TableWriter) (folder : Folder) : Folder := folder.abandon w.target

end TableWriter

end CellIndex
