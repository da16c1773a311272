import CellIndex.Bytes
import CellIndex.Error
import CellIndex.Folder.Path

/-!
# Folders

What a file system holds below one directory, as a value: files with their bytes, and directories.
Programs that read and write files are functions of such a value, and give back the folder as they
leave it.  The directories above the folder exist as well; what else lies outside is only known as
far as it has been put there.

A file is built in two steps, so that nobody ever sees half of it.  `Folder.reserve` creates a
temporary file beside the target, and `Folder.publish` moves the finished bytes over the target in
one go.  When the work is given up, `Folder.abandon` removes the temporary file.
-/

namespace CellIndex

/-- What stands at a path. -/
inductive Node
  /-- A file with its contents. -/
  | file (bytes : Bytes)
  /-- A directory. -/
  | directory
deriving DecidableEq, Repr

/-- All files and directories below a directory. -/
structure Folder where
  /-- What stands where.  Of two entries for one path the first counts. -/
  entries : List (List String × Node)
deriving Repr

namespace Folder

/-- The folder without contents. -/
def empty : Folder := ⟨[]⟩

/-- What stands at a path, if anything. -/
def get? (folder : Folder) (path : Path) : Option Node :=
  if path.isAbove then some .directory else folder.entries.lookup path.steps

/-- The folder with something else at a path. -/
def put (folder : Folder) (path : Path) (node : Node) : Folder :=
  ⟨(path.steps, node) :: folder.entries.filter (·.1 ≠ path.steps)⟩

/-- The folder with nothing at a path. -/
def remove (folder : Folder) (path : Path) : Folder :=
  ⟨folder.entries.filter (·.1 ≠ path.steps)⟩

/-- The contents of the file at a path. -/
def read (folder : Folder) (path : Path) : Except Error Bytes :=
  match folder.get? path with
  | some (.file bytes) => if path.fits && !path.directoryOnly then .ok bytes else .error .io
  | _ => .error .io

/-- Creates the temporary file for a target.  This fails if its path is too long, if its directory
does not exist, or if a directory stands in the way. -/
def reserve (folder : Folder) (target : Path) : Except Error Folder :=
  if !target.temporary.fits then .error .io
  else if folder.get? target.temporary.parent ≠ some .directory then .error .io
  else if folder.get? target.temporary = some .directory then .error .io
  else .ok (folder.put target.temporary (.file []))

/-- Removes the temporary file of a target. -/
def abandon (folder : Folder) (target : Path) : Folder := folder.remove target.temporary

/-- The largest number of bytes in a file: places in a file are signed words. -/
def maxFileSize : Nat := 2 ^ 63 - 1

/-- Moves the temporary file, which by now holds `bytes`, over the target.  This fails if the path
of the target is too long, if the target is a directory, or if no file can hold so many bytes, and
then the temporary file is gone as well. -/
def publish (folder : Folder) (target : Path) (bytes : Bytes) : Except Error Unit × Folder :=
  let rest := folder.abandon target
  if !target.fits ∨ target.directoryOnly ∨ folder.get? target = some .directory ∨
      maxFileSize < bytes.length then
    (.error .io, rest)
  else (.ok (), rest.put target (.file bytes))

@[simp] theorem get?_put_self {folder : Folder} {path : Path} {node : Node}
    (h : path.isAbove = false) : (folder.put path node).get? path = some node := by
  simp [get?, put, h]

theorem lookup_filter_ne {entries : List (List String × Node)} {a b : List String} (h : a ≠ b) :
    (entries.filter (·.1 ≠ b)).lookup a = entries.lookup a := by
  induction entries with
  | nil => rfl
  | cons e rest ih =>
    obtain ⟨key, node⟩ := e
    by_cases hk : key = b
    · subst hk
      simp only [ne_eq, decide_not, List.lookup_cons, beq_false_of_ne h] at ih ⊢
      simpa using ih
    · rw [List.filter_cons_of_pos (by simpa using hk)]
      simp only [List.lookup_cons, ih]

/-- Putting something at one path changes no other path. -/
theorem get?_put_of_ne {folder : Folder} {path other : Path} {node : Node}
    (h : other.steps ≠ path.steps) : (folder.put path node).get? other = folder.get? other := by
  simp only [get?, put, List.lookup_cons, beq_false_of_ne h, lookup_filter_ne h]

/-- Removing one path changes no other path. -/
theorem get?_remove_of_ne {folder : Folder} {path other : Path} (h : other.steps ≠ path.steps) :
    (folder.remove path).get? other = folder.get? other := by
  simp only [get?, remove, lookup_filter_ne h]

/-- Nothing is left at a removed path. -/
theorem get?_remove_self {folder : Folder} {path : Path} (h : path.isAbove = false) :
    (folder.remove path).get? path = none := by
  rw [get?, h, if_neg Bool.false_ne_true, remove]
  induction folder.entries with
  | nil => rfl
  | cons e rest ih =>
    by_cases hk : e.1 = path.steps
    · simpa [List.filter_cons, hk] using ih
    · rw [List.filter_cons_of_pos (by simpa using hk), List.lookup_cons,
        beq_false_of_ne (Ne.symm hk)]
      exact ih

end Folder

end CellIndex
