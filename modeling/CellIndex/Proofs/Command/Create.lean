import CellIndex.Command.Run
import CellIndex.Proofs.Pipeline
import CellIndex.Proofs.RangeFile.Publication

/-!
# What the command `create` does to its folder

A range file that is written in one batch either appears, or nothing but its temporary file has been
touched (`writeFile_cases`).  The command `create` reads all that it needs before it begins to
write, and fails if anything goes wrong (`create_cases`).  So a failed command leaves every file
beside the temporary one as it was, its output included, and one that succeeds changes its output
only, which then holds the merged ranges of the cell list: **`create_touches_output`**.
-/

namespace CellIndex

open Sequence
open RangeWriter (sampleFormat sampleRange)

/-! ## Files in one batch -/

namespace RangeWriter

variable {f : Format} {folder after : Folder} {target : Path} {ranges : List CellRange}
  {timestamp : Int64}

/-- Writing a file fails with at most the temporary file touched, or a writer takes all ranges and
is closed. -/
lemma writeFile_cases (folder : Folder) (target : Path) (f : Format) (ranges : List CellRange)
    (timestamp : Int64) :
    (∃ e after, writeFile folder target f ranges timestamp = (.error e, after) ∧
      folder.Keeps target after) ∨
    ∃ w w' folder₁ after, create folder target f = .ok (w, folder₁) ∧
      folder.Keeps target folder₁ ∧ w.write folder₁ ranges = (.ok (), w', folder₁) ∧
      w'.close folder₁ timestamp = (.ok (), after) ∧
      writeFile folder target f ranges timestamp = (.ok (), after) := by
  rw [writeFile]
  cases hcreate : create folder target f with
  | error e => exact .inl ⟨e, folder, rfl, fun _ _ => rfl⟩
  | ok created =>
    obtain ⟨w, folder₁⟩ := created
    obtain ⟨folder', hreserve, heq⟩ := map_eq_ok.1 hcreate
    obtain ⟨-, rfl⟩ := Prod.mk.inj heq
    have hkeeps := (Folder.keeps_of_reserve hreserve).1
    rcases (holds_of_create hcreate).write_cases folder' ranges with
      ⟨w', groups, hwrite, hw'⟩ | ⟨e, w', hwrite, hfailed⟩
    · obtain ⟨b, t, -, -, hclose⟩ := hw'.exists_close
      by_cases hpublish : folder'.Publishable target (t.image timestamp)
      · have hdone := (hclose folder' timestamp).trans (Folder.publish_of_publishable hpublish)
        refine .inr ⟨w, w', folder', _, rfl, hkeeps, hwrite, hdone, ?_⟩
        simp only [hwrite, hdone]
      · refine .inl ⟨.io, _, ?_, hkeeps.abandon⟩
        simp only [hwrite, hclose, Folder.publish_of_not_publishable hpublish]
    · refine .inl ⟨e, _, ?_, hkeeps.abandon⟩
      simp only [hwrite, drop_of_failed hfailed]

/-- A file that could not be written has left everything but its temporary file as it was. -/
lemma keeps_of_writeFile_eq_error {e : Error}
    (h : writeFile folder target f ranges timestamp = (.error e, after)) :
    folder.Keeps target after := by
  rcases writeFile_cases folder target f ranges timestamp with
    ⟨e', after', herror, hkeeps⟩ | ⟨w, w', folder₁, after', -, -, -, -, hok⟩
  · obtain rfl := (Prod.mk.inj (herror.symm.trans h)).2
    exact hkeeps
  · cases (Prod.mk.inj (hok.symm.trans h)).1

/-- A file that has been written holds its ranges.  Nothing else has changed, and there is no
temporary file. -/
lemma isFileOf_of_writeFile (h : writeFile folder target f ranges timestamp = (.ok (), after)) :
    (∀ path : Path, path.steps ≠ target.steps → path.steps ≠ target.temporary.steps →
      after.get? path = folder.get? path) ∧
    after.get? target.temporary = none ∧
    ∃ bytes r, after.read target = .ok bytes ∧ RangeFile.ofBytes bytes = .ok r ∧ r.format = f ∧
      r.IsFileOf ranges := by
  rcases writeFile_cases folder target f ranges timestamp with
    ⟨e, after', herror, -⟩ | ⟨w, w', folder₁, after', hcreate, hkeeps, hwrite, hclose, hok⟩
  · cases (Prod.mk.inj (herror.symm.trans h)).1
  · obtain rfl := (Prod.mk.inj (hok.symm.trans h)).2
    obtain ⟨bytes, r, hread, hr, hformat, hfile⟩ :=
      exists_file_of_session hcreate (.cons hwrite (.nil _ _)) hclose
    rw [List.flatten_singleton] at hfile
    obtain ⟨groups, hw', -⟩ := exists_holds_of_write (holds_of_create hcreate) hwrite
    obtain ⟨b, t, -, -, hpublish⟩ := hw'.exists_close
    rw [hpublish] at hclose
    refine ⟨fun path htarget htemporary => ?_, ?_, bytes, r, hread, hr, hformat, hfile⟩
    · obtain ⟨-, rfl⟩ := Folder.publish_eq_ok_iff.1 hclose
      rw [Folder.get?_put_of_ne htarget]
      exact hkeeps.abandon path htemporary
    · have hgone := folder₁.get?_temporary_publish target (t.image timestamp)
      rwa [hclose] at hgone

end RangeWriter

/-! ## Showing a file -/

namespace Command

variable {folder after : Folder} {f : Format} {cells : List CellEntry} {ranges : List CellRange}
  {timestamp : Int64} {o : CreateOptions} {r : RangeFile}

/-- The ranges of a file without faults are shown one after the other, and then counted. -/
lemma dumpRanges_map_ok (count : Nat) (ranges : List CellRange) :
    dumpRanges count (ranges.map .ok) =
      { output := ranges.foldr (fun range rest => line range.describe ++ rest)
          (line s!"{count + ranges.length} ranges") } := by
  induction ranges generalizing count with
  | nil => rfl
  | cons range ranges ih =>
    rw [List.map_cons, dumpRanges, ih, List.length_cons, List.foldr_cons, Nat.add_right_comm,
      Nat.add_assoc]

/-- A file keeps merged ranges as they are. -/
lemma ranges_eq_of_mergeCells (hfile : r.IsFileOf ranges)
    (hmerge : mergeCells r.format cells = .ok ranges) : r.ranges = ranges.map .ok := by
  rw [hfile.ranges_eq]
  refine List.map_congr_left fun range hrange => congrArg Except.ok ?_
  have hvalue := value_stored_of_mergeCells hmerge hrange
  rw [CellRange.stored_value] at hvalue
  rw [CellRange.stored]
  split_ifs at hvalue ⊢
  · obtain ⟨start, stop, value⟩ := range
    exact congrArg (CellRange.mk start stop) hvalue
  · rfl

/-! ## Creating a file -/

/-- The list is read, parsed and merged. -/
lemma loadRanges_eq_ok_iff {count : Nat} : loadRanges folder o f = .ok (count, ranges) ↔
    ∃ content cells, folder.read (.ofString o.inputFile) = .ok content ∧
      CellList.ofFile o.cellFormat content = .ok cells ∧ mergeCells f cells = .ok ranges ∧
      cells.length = count := by
  rw [loadRanges, bind_eq_ok]
  simp only [bind_eq_ok]
  constructor
  · rintro ⟨content, hread, cells, hcells, merged, hmerge, hpair⟩
    obtain ⟨hcount, rfl⟩ := Prod.mk.inj (Except.ok.inj hpair)
    exact ⟨content, cells, hread, hcells, hmerge, hcount⟩
  · rintro ⟨content, cells, hread, hcells, hmerge, rfl⟩
    exact ⟨content, hread, cells, hcells, ranges, hmerge, rfl⟩

/-- The command fails with at most the temporary file touched, or it writes what it has loaded. -/
lemma create_cases (folder : Folder) (timestamp : Int64) (o : CreateOptions) :
    ((create folder timestamp o).2.code = 1 ∧
      folder.Keeps (.ofString o.outputFile) (create folder timestamp o).1) ∨
    ∃ f count ranges, (create folder timestamp o).2.code = 0 ∧ loadFormat folder o = .ok f ∧
      loadRanges folder o f = .ok (count, ranges) ∧
      RangeWriter.writeFile folder (.ofString o.outputFile) f ranges timestamp =
        (.ok (), (create folder timestamp o).1) := by
  rw [create]
  cases hformat : loadFormat folder o with
  | error failure => exact .inl ⟨rfl, fun _ _ => rfl⟩
  | ok f =>
    cases hranges : loadRanges folder o f with
    | error e =>
      simp only [hranges]
      exact .inl ⟨rfl, fun _ _ => rfl⟩
    | ok loaded =>
      obtain ⟨count, ranges⟩ := loaded
      cases hwrite : RangeWriter.writeFile folder (.ofString o.outputFile) f ranges timestamp with
      | mk answer after =>
        cases answer with
        | error e =>
          simp only [hranges, hwrite]
          exact .inl ⟨rfl, RangeWriter.keeps_of_writeFile_eq_error hwrite⟩
        | ok =>
          simp only [hranges, hwrite]
          exact .inr ⟨f, count, ranges, rfl, rfl, hranges, hwrite⟩

/-! ## Command lines -/

lemma create?_cases (words : Words) :
    create? words = none ∨ ∃ o, create? words = some (.create o) := by
  rw [create?]
  cases words.path? "input-file" <;> cases words.number? "s2-level" <;>
    cases words.path? "output-file" <;> simp

/-- A command line of the command asks for nothing known, for help, or for a file. -/
lemma ofWords?_create_cases (words : List String) :
    Request.ofWords? ("create" :: words) = none ∨
      Request.ofWords? ("create" :: words) = some .help ∨
      ∃ o, Request.ofWords? ("create" :: words) = some (.create o) := by
  have hcommand : Request.ofWords? ("create" :: words) =
      Command.ofWords? createSpec create? words := by
    rw [Request.ofWords?]
    exact if_pos rfl
  rw [hcommand, Command.ofWords?]
  cases readWords createSpec words .empty with
  | none => exact .inl rfl
  | some reading =>
    cases reading with
    | help => exact .inr (.inl rfl)
    | words words => exact (create?_cases words).imp_right .inr

/-- The name of something in the folder itself. -/
structure IsPlainName (name : String) : Prop where
  /-- It is a single part of a path. -/
  slash_not_mem : '/' ∉ name.toList
  /-- It is not empty, and no dot. -/
  isIdle_eq : Path.isIdle name = false
  /-- It does not lead upwards. -/
  ne_upward : name ≠ Path.upward

namespace IsPlainName

variable {name : String}

lemma steps_eq (h : IsPlainName name) : (Path.ofString name).steps = [name] := by
  rw [Path.ofString_name h.slash_not_mem, Path.steps_name h.isIdle_eq]

/-- A name with the ending of a temporary file is a plain name as well. -/
lemma ofString_append_ending (h : IsPlainName name) :
    Path.ofString (name ++ ".tmp") = ⟨[name ++ ".tmp"]⟩ := by
  apply Path.ofString_name
  rw [String.toList_append, List.mem_append, not_or]
  exact ⟨h.slash_not_mem, by decide⟩

/-- The temporary file stands beside the file, under its name with an ending. -/
lemma temporary_eq (h : IsPlainName name) :
    (Path.ofString name).temporary = Path.ofString (name ++ ".tmp") := by
  have hroot : name ≠ Path.root := by
    rintro rfl
    exact h.slash_not_mem (by decide)
  rw [h.ofString_append_ending, Path.ofString_name h.slash_not_mem,
    Path.temporary_name h.isIdle_eq h.ne_upward hroot]
  rfl

lemma steps_temporary_eq (h : IsPlainName name) :
    (Path.ofString name).temporary.steps = [name ++ ".tmp"] := by
  rw [h.temporary_eq, h.ofString_append_ending]
  exact Path.steps_name (Path.isIdle_append_ending name)

end IsPlainName

/-- The folder after the command has created its output. -/
structure Created (folder : Folder) (o : CreateOptions) (after : Folder) : Prop where
  /-- Every other file is what it was. -/
  kept : ∀ path : Path, path.steps ≠ [o.outputFile] → path.steps ≠ [o.outputFile ++ ".tmp"] →
    after.get? path = folder.get? path
  /-- There is no temporary file. -/
  temporary : after.get? (.ofString (o.outputFile ++ ".tmp")) = none
  /-- The output has the format that was asked for, and shows what the list merges to. -/
  written : ∃ f content cells ranges r, loadFormat folder o = .ok f ∧
    folder.read (.ofString o.inputFile) = .ok content ∧
    CellList.ofFile o.cellFormat content = .ok cells ∧ mergeCells f cells = .ok ranges ∧
    openFile after o.outputFile = .ok r ∧ r.format = f ∧ r.ranges = ranges.map .ok ∧
    dump after o.outputFile =
      { output := ranges.foldr (fun range rest => line range.describe ++ rest)
          (line s!"{ranges.length} ranges") }

/-- A file that is written from what has been loaded is created. -/
lemma created_of_writeFile {count : Nat} (hname : IsPlainName o.outputFile)
    (hformat : loadFormat folder o = .ok f) (hloaded : loadRanges folder o f = .ok (count, ranges))
    (hwrite : RangeWriter.writeFile folder (.ofString o.outputFile) f ranges timestamp =
      (.ok (), after)) : Created folder o after := by
  obtain ⟨content, cells, hread, hcells, hmerge, -⟩ := loadRanges_eq_ok_iff.1 hloaded
  obtain ⟨hkept, htemporary, bytes, r, hbytes, hr, rfl, hfile⟩ :=
    RangeWriter.isFileOf_of_writeFile hwrite
  have hopen : openFile after o.outputFile = .ok r := bind_eq_ok.2 ⟨bytes, hbytes, hr⟩
  have hranges := ranges_eq_of_mergeCells hfile hmerge
  rw [hname.steps_eq, hname.steps_temporary_eq] at hkept
  rw [hname.temporary_eq] at htemporary
  refine ⟨hkept, htemporary, r.format, content, cells, ranges, r, hformat, hread, hcells, hmerge,
    hopen, rfl, hranges, ?_⟩
  have hdump := dumpRanges_map_ok 0 ranges
  rw [Nat.zero_add] at hdump
  simp only [dump, hopen, hranges, hdump]

/-! ## A list that is overwritten -/

/-- A folder with a list and another file. -/
def sampleFolder : Folder :=
  (Folder.empty.put ⟨["other"]⟩ (.file [1])).put ⟨["cells"]⟩
    (.file "04,7\n1c,8\n".toUTF8.toList)

/-- The words that ask to write a file over its own list. -/
def sampleWords (cellFormat : String) : List String :=
  ["--input-file", "cells", "--s2-level=1", "--entry-value-byte-size", "1", "--cell-format",
    cellFormat, "--output-file", "cells"]

/-- What these words ask for. -/
def sampleOptions (cellFormat : CellFormat) : CreateOptions :=
  { inputFile := "cells", level := 1, allowedList := true, valueBytes := 1, version := 0
    formatFile := none, cellFormat, outputFile := "cells", verbose := false }

/-- The ranges of the list are those of a child of the first face and of another one. -/
lemma loadRanges_sample :
    loadRanges sampleFolder (sampleOptions .token) sampleFormat =
      .ok (2, [sampleRange 0 1 7, sampleRange 3 4 8]) := by
  have hread : sampleFolder.read (.ofString "cells") = .ok "04,7\n1c,8\n".toUTF8.toList := by
    decide +kernel
  have hcells : CellList.ofFile .token "04,7\n1c,8\n".toUTF8.toList =
      .ok [⟨.ofNat 0x0400000000000000, some 7⟩, ⟨.ofNat 0x1C00000000000000, some 8⟩] := by
    decide +kernel
  have hmerge : mergeCells sampleFormat
      [⟨.ofNat 0x0400000000000000, some 7⟩, ⟨.ofNat 0x1C00000000000000, some 8⟩] =
        .ok [sampleRange 0 1 7, sampleRange 3 4 8] := by
    rw [mergeCells_eq (by unfold CellsFit; decide +kernel),
      List.mergeSort_of_pairwise (by decide +kernel)]
    decide +kernel
  exact loadRanges_eq_ok_iff.2 ⟨_, _, hread, hcells, hmerge, rfl⟩

lemma exists_sample_file : ∃ after,
    RangeWriter.writeFile sampleFolder ⟨["cells"]⟩ sampleFormat
      [sampleRange 0 1 7, sampleRange 3 4 8] 0 = (.ok (), after) := by
  have hreserve : ∃ folder, sampleFolder.reserve ⟨["cells"]⟩ = .ok folder ∧
      folder.get? ⟨["cells"]⟩ ≠ some .directory := by
    rw [Folder.reserve, if_neg (by decide +kernel), if_neg (by decide +kernel),
      if_neg (by decide +kernel)]
    exact ⟨_, rfl, by decide +kernel⟩
  obtain ⟨folder, hreserve, hfree⟩ := hreserve
  obtain ⟨t, hbuild, hsize⟩ := @RangeWriter.exists_built_of_samplesBuild
    [[sampleRange 0 1 7, sampleRange 3 4 8]] (by decide +kernel)
  obtain ⟨w, w', after, hcreate, haccepts, hclose⟩ := RangeWriter.exists_session hreserve hbuild
    (by decide +kernel) (by decide +kernel) hfree (hsize 0)
  cases haccepts with
  | cons hwrite hrest =>
    cases hrest
    exact ⟨after, by simp only [RangeWriter.writeFile, hcreate, hwrite, hclose]⟩

/-- The file can be written over the list. -/
lemma code_create_sample : (create sampleFolder 0 (sampleOptions .token)).2.code = 0 := by
  have hformat : loadFormat sampleFolder (sampleOptions .token) = .ok sampleFormat := rfl
  have hpath : Path.ofString (sampleOptions .token).outputFile = ⟨["cells"]⟩ :=
    Path.ofString_name (by decide)
  obtain ⟨after, hwrite⟩ := exists_sample_file
  simp only [create, hformat, loadRanges_sample, hpath, hwrite]
  rfl

/-! ## What changes -/

/-- **Creating a range file touches its output only, and only on success.**  Whatever the folder
holds, and for every command line that does not ask for help and names its output by a plain name:

* If the exit code is not zero, every file is what it was, the output included.  Only the temporary
  file beside the output may have changed, if the command line was understood at all.
* If the exit code is zero, the output holds what was asked for, there is no temporary file, and
  every other file is what it was. -/
theorem create_touches_output (folder : Folder) (timestamp : Int64) (words : List String)
    (hhelp : Request.ofWords? ("create" :: words) ≠ some .help)
    (hname : ∀ o, Request.ofWords? ("create" :: words) = some (.create o) →
      IsPlainName o.outputFile) :
    ∃ after outcome, execute folder timestamp ("create" :: words) = (after, outcome) ∧
      (exitCode outcome ≠ 0 → ∀ path : Path,
        (∀ o, Request.ofWords? ("create" :: words) = some (.create o) →
          path.steps ≠ [o.outputFile ++ ".tmp"]) → after.get? path = folder.get? path) ∧
      (exitCode outcome = 0 → ∃ o, Request.ofWords? ("create" :: words) = some (.create o) ∧
        Created folder o after) := by
  rcases ofWords?_create_cases words with hnone | hwords | ⟨o, ho⟩
  · refine ⟨folder, none, ?_, fun _ _ _ => rfl, fun hcode => absurd hcode (by decide)⟩
    simp only [execute, hnone]
  · exact absurd hwords hhelp
  · have hplain := hname o ho
    have hexecute : execute folder timestamp ("create" :: words) =
        ((create folder timestamp o).1, some (create folder timestamp o).2) := by
      simp only [execute, ho, run]
    have hcode : exitCode (some (create folder timestamp o).2) =
        (create folder timestamp o).2.code := rfl
    refine ⟨_, _, hexecute, ?_⟩
    rw [hcode]
    rcases create_cases folder timestamp o with
      ⟨hfailed, hkeeps⟩ | ⟨f, count, ranges, hdone, hformat, hranges, hwrite⟩
    · refine ⟨fun _ path hpath => hkeeps path ?_, fun hzero => ?_⟩
      · rw [hplain.steps_temporary_eq]
        exact hpath o ho
      · rw [hfailed] at hzero
        exact absurd hzero (by decide)
    · exact ⟨fun hne => absurd hdone hne,
        fun _ => ⟨o, ho, created_of_writeFile hplain hformat hranges hwrite⟩⟩

/-- A list of tokens is replaced by its range file.  If its cells are taken for numbers, the command
fails and the list stays. -/
theorem create_touches_output_over_list :
    (∃ after outcome,
      execute sampleFolder 0 ("create" :: sampleWords "token") = (after, outcome) ∧
        exitCode outcome = 0 ∧ after.get? ⟨["other"]⟩ = some (.file [1]) ∧
        after.get? ⟨["cells.tmp"]⟩ = none ∧
        dump after "cells" =
          { output := "[04 (0/0), 0c (0/1)) value=7\n[1c (0/3), 24 (1/0)) value=8\n2 ranges\n" }) ∧
      ∃ after outcome,
        execute sampleFolder 0 ("create" :: sampleWords "decimal") = (after, outcome) ∧
          exitCode outcome = 1 ∧
          after.get? ⟨["cells"]⟩ = some (.file "04,7\n1c,8\n".toUTF8.toList) := by
  have hplain : IsPlainName "cells" := ⟨by decide, by decide, by decide⟩
  have htoken : Request.ofWords? ("create" :: sampleWords "token") =
      some (.create (sampleOptions .token)) := by decide +kernel
  have hdecimal : Request.ofWords? ("create" :: sampleWords "decimal") =
      some (.create (sampleOptions .decimal)) := by decide +kernel
  constructor
  · obtain ⟨after, outcome, hexecute, -, hdone⟩ := create_touches_output sampleFolder 0
      (sampleWords "token") (by rw [htoken]; simp) (by
        intro o ho
        obtain rfl := Request.create.inj (Option.some.inj (htoken.symm.trans ho))
        exact hplain)
    have hcode : exitCode outcome = 0 := by
      simp only [execute, htoken, run, Prod.mk.injEq] at hexecute
      rw [← hexecute.2]
      exact code_create_sample
    obtain ⟨o, ho, hcreated⟩ := hdone hcode
    obtain rfl := Request.create.inj (Option.some.inj (htoken.symm.trans ho))
    obtain ⟨f, content, cells, ranges, r, hformat, hread, hcells, hmerge, -, -, -, hdump⟩ :=
      hcreated.written
    have hother := hcreated.kept ⟨["other"]⟩ (by decide) (by decide)
    refine ⟨after, outcome, hexecute, hcode, ?_, ?_, ?_⟩
    · rw [hother]
      decide +kernel
    · exact hcreated.temporary
    · obtain rfl : sampleFormat = f := Except.ok.inj hformat
      have hranges : loadRanges sampleFolder (sampleOptions .token) sampleFormat =
          .ok (cells.length, ranges) :=
        loadRanges_eq_ok_iff.2 ⟨content, cells, hread, hcells, hmerge, rfl⟩
      rw [loadRanges_sample] at hranges
      obtain ⟨-, rfl⟩ := Prod.mk.inj (Except.ok.inj hranges)
      exact hdump.trans (congrArg (Outcome.mk · none) (by decide +kernel))
  · obtain ⟨after, outcome, hexecute, hfailed, -⟩ := create_touches_output sampleFolder 0
      (sampleWords "decimal") (by rw [hdecimal]; simp) (by
        intro o ho
        obtain rfl := Request.create.inj (Option.some.inj (hdecimal.symm.trans ho))
        exact hplain)
    have hcode : exitCode outcome = 1 := by
      have hrun : exitCode (execute sampleFolder 0 ("create" :: sampleWords "decimal")).2 = 1 := by
        decide +kernel
      rwa [hexecute] at hrun
    refine ⟨after, outcome, hexecute, hcode, ?_⟩
    rw [hfailed (by rw [hcode]; decide)]
    · decide +kernel
    · intro o ho
      obtain rfl := Request.create.inj (Option.some.inj (hdecimal.symm.trans ho))
      decide

end Command

end CellIndex
