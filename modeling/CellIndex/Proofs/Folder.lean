import CellIndex.Folder
import Mathlib.Tactic.Common

/-!
# Files that are published

As long as a file is on its way, the folder differs from what it was before at the temporary file
only (`Keeps`).  The file is published exactly if its path can be that of a file and it is not too
large (`Publishable`).  Afterwards it holds the bytes that have been published (`read_of_publish`).
-/

namespace CellIndex.Folder

variable {initial folder folder' : Folder} {target : Path} {bytes : Bytes}

/-! ## The temporary file -/

/-- Everything but the temporary file of the target is as it was. -/
def Keeps (initial : Folder) (target : Path) (folder : Folder) : Prop :=
  ∀ path : Path, path.steps ≠ target.temporary.steps → folder.get? path = initial.get? path

lemma Keeps.target_eq (h : initial.Keeps target folder) :
    folder.get? target = initial.get? target := h target target.steps_temporary_ne.symm

/-- The temporary file of a target that is reserved is there, and nothing else has changed. -/
lemma keeps_of_reserve (h : folder.reserve target = .ok folder') :
    folder.Keeps target folder' ∧ (folder'.get? target.temporary).isSome := by
  rw [reserve] at h
  split_ifs at h
  obtain rfl := Except.ok.inj h
  refine ⟨fun path hne => get?_put_of_ne hne, ?_⟩
  rw [get?_put_self target.isAbove_temporary]
  rfl

/-- The empty folder has room for a file at its top. -/
lemma reserve_empty (hfits : target.temporary.fits = true)
    (htop : target.temporary.parent.isAbove = true) :
    empty.reserve target = .ok (empty.put target.temporary (.file [])) := by
  have hparent : empty.get? target.temporary.parent = some .directory := if_pos htop
  have hfree : empty.get? target.temporary = none := by
    rw [get?, target.isAbove_temporary]
    rfl
  rw [reserve, hparent, hfree]
  simp [hfits]

lemma Keeps.abandon (h : initial.Keeps target folder) :
    initial.Keeps target (folder.abandon target) :=
  fun path hne => (get?_remove_of_ne hne).trans (h path hne)

lemma get?_temporary_abandon (folder : Folder) (target : Path) :
    (folder.abandon target).get? target.temporary = none :=
  get?_remove_self target.isAbove_temporary

/-! ## The published file -/

/-- The target can be a file with so many bytes. -/
structure Publishable (folder : Folder) (target : Path) (bytes : Bytes) : Prop where
  fits : target.fits = true
  namesFile : target.directoryOnly = false
  free : folder.get? target ≠ some .directory
  size : bytes.length ≤ maxFileSize

/-- Only the length of the bytes matters. -/
lemma Publishable.congr {bytes' : Bytes} (h : folder.Publishable target bytes)
    (hlength : bytes.length = bytes'.length) : folder.Publishable target bytes' :=
  ⟨h.fits, h.namesFile, h.free, hlength ▸ h.size⟩

lemma publish_of_publishable (h : folder.Publishable target bytes) :
    folder.publish target bytes = (.ok (), (folder.abandon target).put target (.file bytes)) := by
  obtain ⟨hfits, hfile, hfree, hsize⟩ := h
  rw [publish, if_neg]
  rintro (h | h | h | h)
  · simp [hfits] at h
  · simp [hfile] at h
  · exact hfree h
  · omega

/-- Only the temporary file is lost if the target cannot be published. -/
lemma publish_of_not_publishable (h : ¬ folder.Publishable target bytes) :
    folder.publish target bytes = (.error .io, folder.abandon target) := by
  rw [publish, if_pos]
  by_contra hno
  simp only [not_or, Bool.not_eq_true', Bool.not_eq_false, Bool.not_eq_true, Nat.not_lt] at hno
  exact h ⟨hno.1, hno.2.1, hno.2.2.1, hno.2.2.2⟩

/-- Publishing succeeds exactly if the target can be a file with so many bytes. -/
lemma publish_eq_ok_iff : folder.publish target bytes = (.ok (), folder') ↔
    folder.Publishable target bytes ∧
    folder' = (folder.abandon target).put target (.file bytes) := by
  by_cases h : folder.Publishable target bytes
  · rw [publish_of_publishable h, and_iff_right h, Prod.mk.injEq]
    exact (and_iff_right rfl).trans eq_comm
  · rw [publish_of_not_publishable h]
    exact iff_of_false (by simp) fun hok => h hok.1

/-- No temporary file is left behind, whether or not the target has been published. -/
lemma get?_temporary_publish (folder : Folder) (target : Path) (bytes : Bytes) :
    (folder.publish target bytes).2.get? target.temporary = none := by
  by_cases h : folder.Publishable target bytes
  · rw [publish_of_publishable h, get?_put_of_ne target.steps_temporary_ne]
    exact get?_temporary_abandon folder target
  · rw [publish_of_not_publishable h]
    exact get?_temporary_abandon folder target

/-- A published file holds the bytes that have been published, and no file is too large. -/
lemma read_of_publish (h : folder.publish target bytes = (.ok (), folder')) :
    folder'.read target = .ok bytes ∧ bytes.length ≤ maxFileSize := by
  obtain ⟨⟨hfits, hfile, hfree, hsize⟩, rfl⟩ := publish_eq_ok_iff.1 h
  have habove : target.isAbove = false := by
    by_contra habove
    exact hfree (if_pos (by simpa using habove))
  refine ⟨?_, hsize⟩
  rw [read, get?_put_self habove]
  simp [hfits, hfile]

end CellIndex.Folder
