import CellIndex.Proofs.Folder
import CellIndex.Table.Writer

/-!
# Who removes the temporary file

A writer has its temporary file in hand from its creation on.  Publishing writes the file to its end
and closes it, and only then moves it over the target; so when the move fails, the writer has no
file in hand any more.  There are three places where the temporary file is removed: finishing
removes it if publishing has failed, whether the file is still in hand or not; discarding removes it
at once; and a writer that comes to its end removes it if the file is still in hand.  The last of
these is also passed by a writer that has been finished or discarded.

All ways together do what `TableWriter.finish` and `TableWriter.discard` say (`finish_eq`,
`discard_eq`, `drop_eq`).  In particular nothing is removed after the target has been replaced.
-/

namespace CellIndex

namespace Folder

variable {target : Path} {bytes : Bytes}

/-- Writes the temporary file of a target to its end.  This fails if no file can hold so many
bytes. -/
def fill (folder : Folder) (target : Path) (bytes : Bytes) : Except Error Unit × Folder :=
  if maxFileSize < bytes.length then (.error .io, folder)
  else (.ok (), folder.put target.temporary (.file bytes))

/-- Moves the temporary file of a target over the target.  This fails if there is no such file, if
the path of the target is too long, or if the target is a directory, and changes nothing then. -/
def rename (folder : Folder) (target : Path) : Except Error Unit × Folder :=
  match folder.get? target.temporary with
  | some (.file bytes) =>
    if !target.fits ∨ target.directoryOnly ∨ folder.get? target = some .directory then
      (.error .io, folder)
    else (.ok (), (folder.remove target.temporary).put target (.file bytes))
  | _ => (.error .io, folder)

lemma remove_remove (folder : Folder) (path : Path) :
    (folder.remove path).remove path = folder.remove path := by
  simp [remove]

lemma remove_put (folder : Folder) (path : Path) (node : Node) :
    (folder.put path node).remove path = folder.remove path := by
  simp [remove, put]

lemma rename_fill (folder : Folder) (target : Path) (bytes : Bytes) :
    (folder.put target.temporary (.file bytes)).rename target =
      if !target.fits ∨ target.directoryOnly ∨ folder.get? target = some .directory then
        (.error .io, folder.put target.temporary (.file bytes))
      else (.ok (), (folder.abandon target).put target (.file bytes)) := by
  rw [rename, get?_put_self target.isAbove_temporary, get?_put_of_ne target.steps_temporary_ne.symm,
    remove_put]
  rfl

end Folder

namespace TableWriter

/-- A writer, with what it has in hand of its temporary file. -/
structure Handle where
  /-- The writer. -/
  writer : TableWriter
  /-- Whether the temporary file is open. -/
  isOpen : Bool

namespace Handle

variable {h : Handle} {folder : Folder} {timestamp : Int64}

/-- The end of a writer: a file that is still open is given up. -/
def drop (h : Handle) (folder : Folder) : Folder :=
  if h.isOpen then folder.remove h.writer.target.temporary else folder

/-- Writes the temporary file to its end, closes it, and moves it over the target. -/
def publish (h : Handle) (folder : Folder) (timestamp : Int64) :
    Except Error Unit × Handle × Folder :=
  match folder.fill h.writer.target (h.writer.builder.image timestamp) with
  | (.error e, folder) => (.error e, h, folder)
  | (.ok (), folder) =>
    let (answer, folder) := folder.rename h.writer.target
    (answer, { h with isOpen := false }, folder)

/-- Publishes the table, and removes the temporary file if this fails. -/
def finish (h : Handle) (folder : Folder) (timestamp : Int64) : Except Error Unit × Folder :=
  match h.publish folder timestamp with
  | (.ok (), h, folder) => (.ok (), h.drop folder)
  | (.error e, h, folder) => (.error e, h.drop (folder.remove h.writer.target.temporary))

/-- Closes the temporary file and removes it. -/
def discard (h : Handle) (folder : Folder) : Folder :=
  drop { h with isOpen := false } (folder.remove h.writer.target.temporary)

lemma drop_eq (hopen : h.isOpen = true) : h.drop folder = h.writer.discard folder :=
  if_pos hopen

lemma discard_eq (h : Handle) (folder : Folder) : h.discard folder = h.writer.discard folder := rfl

/-- A file that is written to its end is closed, whether or not it can be moved. -/
lemma publish_of_size (h : Handle)
    (hsize : ¬ Folder.maxFileSize < (h.writer.builder.image timestamp).length) :
    h.publish folder timestamp =
      let (answer, folder) := Folder.rename (folder.put h.writer.target.temporary
        (.file (h.writer.builder.image timestamp))) h.writer.target
      (answer, { h with isOpen := false }, folder) := by
  rw [publish, Folder.fill, if_neg hsize]

/-- The temporary file is removed once publishing has failed, and not touched once it has
succeeded. -/
lemma finish_eq (hopen : h.isOpen = true) :
    h.finish folder timestamp = h.writer.finish folder timestamp := by
  rw [TableWriter.finish, Folder.publish]
  by_cases hsize : Folder.maxFileSize < (h.writer.builder.image timestamp).length
  · -- the file is still in hand, so it is removed twice
    have hpublish : h.publish folder timestamp = (.error .io, h, folder) := by
      rw [publish, Folder.fill, if_pos hsize]
    simp only [finish, hpublish, drop, hopen, if_true, Folder.remove_remove, hsize, or_true]
    rfl
  · rw [finish, publish_of_size h hsize, Folder.rename_fill]
    simp only [hsize, or_false]
    by_cases hno : !h.writer.target.fits ∨ h.writer.target.directoryOnly ∨
        folder.get? h.writer.target = some .directory
    · simp only [if_pos hno, drop, Bool.false_eq_true, if_false, Folder.remove_put]
      rfl
    · simp only [if_neg hno, drop, Bool.false_eq_true, if_false]

end Handle

end TableWriter

end CellIndex
