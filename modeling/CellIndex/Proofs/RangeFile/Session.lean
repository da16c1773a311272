import CellIndex.Proofs.Folder
import CellIndex.Proofs.RangeFile.Reading
import CellIndex.RangeFile.Writer

/-!
# Writing and reading a range file

A session creates a writer, writes batches that are all accepted (`Accepts`), and closes the writer.
The file that it leaves gives back the ranges of all batches: as a whole and prefix by prefix
(**`read_written`**), and cell by cell (**`find_written`**).
-/

namespace CellIndex.RangeWriter

open Sequence

variable {f : Format} {folder folder₁ folder₂ folder₃ : Folder} {target : Path}
  {w w' : RangeWriter} {batches : List (List CellRange)} {timestamp : Int64}

/-- The writer accepts batches one after the other. -/
inductive Accepts : RangeWriter → Folder → List (List CellRange) → RangeWriter → Folder → Prop
  | nil (w : RangeWriter) (folder : Folder) : Accepts w folder [] w folder
  | cons {w w₁ w' : RangeWriter} {folder folder₁ folder' : Folder} {batch : List CellRange}
      {batches : List (List CellRange)} (first : w.write folder batch = (.ok (), w₁, folder₁))
      (rest : Accepts w₁ folder₁ batches w' folder') :
      Accepts w folder (batch :: batches) w' folder'

/-- The writer has accepted the ranges of a division. -/
structure Holds (f : Format) (target : Path) (w : RangeWriter) (groups : List PrefixGroup) :
    Prop where
  target_eq : w.target = target
  builder : ∃ b, w.builder = some b ∧ b.Holds f groups

lemma holds_of_create (h : create folder target f = .ok (w, folder₁)) : Holds f target w [] := by
  obtain ⟨folder', -, heq⟩ := map_eq_ok.1 h
  obtain ⟨rfl, -⟩ := Prod.mk.inj heq
  exact ⟨rfl, _, rfl, RangeBuilder.holds_new f⟩

/-- An accepted batch continues the division. -/
lemma exists_holds_of_write {groups : List PrefixGroup} {batch : List CellRange}
    (hw : Holds f target w groups) (h : w.write folder batch = (.ok (), w', folder₁)) :
    ∃ groups', Holds f target w' (groups ++ groups') ∧ rangesIn groups' = batch := by
  obtain ⟨htarget, b, hb, hholds⟩ := hw
  simp only [write, hb] at h
  cases hadd : b.add batch with
  | error error => simp [hadd] at h
  | ok b' =>
    rw [hadd] at h
    obtain rfl := (Prod.mk.inj (Prod.mk.inj h).2).1
    obtain ⟨groups', hholds', hranges⟩ := RangeBuilder.exists_holds_of_add hholds hadd
    exact ⟨groups', ⟨htarget, b', rfl, hholds'⟩, hranges⟩

/-- A run of accepted batches continues the division by the ranges of all of them. -/
lemma exists_holds_of_accepts {groups : List PrefixGroup} (hw : Holds f target w groups)
    (h : Accepts w folder batches w' folder₁) :
    ∃ groups', Holds f target w' (groups ++ groups') ∧ rangesIn groups' = batches.flatten := by
  -- on the run: each batch adds its groups behind those of the batches before it
  induction h generalizing groups with
  | nil => exact ⟨[], by simpa using hw, rfl⟩
  | cons first _ ih =>
    obtain ⟨groups₁, hw₁, hfirst⟩ := exists_holds_of_write hw first
    obtain ⟨groups₂, hw₂, hrest⟩ := ih hw₁
    rw [List.append_assoc] at hw₂
    exact ⟨groups₁ ++ groups₂, hw₂, by rw [rangesIn_append, hfirst, hrest, List.flatten_cons]⟩

/-- The file of a session that succeeds gives back the ranges of its batches. -/
theorem exists_file_of_session (hcreate : create folder target f = .ok (w, folder₁))
    (hwrite : Accepts w folder₁ batches w' folder₂)
    (hclose : w'.close folder₂ timestamp = (.ok (), folder₃)) :
    ∃ bytes r, folder₃.read target = .ok bytes ∧ RangeFile.ofBytes bytes = .ok r ∧
      r.format = f ∧ r.IsFileOf batches.flatten := by
  obtain ⟨groups, ⟨htarget, b, hb, hholds⟩, hranges⟩ :=
    exists_holds_of_accepts (holds_of_create hcreate) hwrite
  rw [List.nil_append] at hholds
  simp only [close, hb] at hclose
  cases hfin : b.finish with
  | error error => simp [hfin] at hclose
  | ok t =>
    rw [hfin, htarget] at hclose
    obtain ⟨hread, hsize⟩ := Folder.read_of_publish hclose
    have hlt : (t.image timestamp).length < 2 ^ 64 :=
      Nat.lt_of_le_of_lt hsize (by decide)
    obtain ⟨r, hr, hformat, hfile⟩ := hholds.ofBytes_image hfin hlt
    rw [hranges] at hfile
    exact ⟨_, r, hread, hr, hformat, hfile⟩

/-! ## Sessions that succeed -/

/-- The writer takes what its builder takes. -/
lemma accepts_of_foldlM {b b' : RangeBuilder} (folder : Folder) (hb : w.builder = some b)
    (hadd : batches.foldlM RangeBuilder.add b = .ok b') :
    Accepts w folder batches { w with builder := some b' } folder := by
  induction batches generalizing w b with
  | nil =>
    obtain rfl := Except.ok.inj hadd
    rw [← hb]
    exact .nil w folder
  | cons batch batches ih =>
    rw [List.foldlM_cons] at hadd
    obtain ⟨b₁, hfirst, hrest⟩ := bind_eq_ok.1 hadd
    refine .cons ?_ (@ih { w with builder := some b₁ } b₁ rfl hrest)
    simp only [write, hb, hfirst]

/-- A session succeeds if its batches can be built and its target can be a file. -/
lemma exists_session {t : Builder} (hreserve : folder.reserve target = .ok folder₁)
    (hbuild : (batches.foldlM RangeBuilder.add (.new f) >>= RangeBuilder.finish) = .ok t)
    (hfits : target.fits = true) (hdir : target.directoryOnly = false)
    (hget : folder₁.get? target ≠ some .directory)
    (hsize : (t.image timestamp).length ≤ Folder.maxFileSize) :
    ∃ w w' folder₃, create folder target f = .ok (w, folder₁) ∧
      Accepts w folder₁ batches w' folder₁ ∧ w'.close folder₁ timestamp = (.ok (), folder₃) := by
  obtain ⟨b, hadd, hfin⟩ := bind_eq_ok.1 hbuild
  have haccepts :=
    @accepts_of_foldlM { target, format := f, builder := some (.new f) } _ _ b folder₁ rfl hadd
  have hpublish := Folder.publish_eq_ok_iff.2 ⟨⟨hfits, hdir, hget, hsize⟩, rfl⟩
  have hcreate : create folder target f =
      .ok ({ target, format := f, builder := some (.new f) }, folder₁) := by
    rw [create, hreserve]
    rfl
  have hclose : RangeWriter.close { target, format := f, builder := some b } folder₁ timestamp =
      folder₁.publish target (t.image timestamp) := by
    simp only [close, hfin]
  exact ⟨_, _, _, hcreate, haccepts, hclose.trans hpublish⟩

/-- A format of level one with values of one byte. -/
def sampleFormat : Format where
  params :=
    { level := 1, prefixBits := 4, suffixBits := 1, blockOffset := 5, recordBits := 8
      allowedList := true, valueBytes := 1 }
  valid := Params.fault?_eq_none_iff.1 (by decide)

/-- The range between two positions of the sample format. -/
def sampleRange (start stop : Nat) (value : UInt32) : CellRange :=
  ⟨sampleFormat.cellAt start, sampleFormat.cellAt stop, some value⟩

/-- Whether batches can be built in the sample format, to a file that is not too large. -/
def samplesBuild (batches : List (List CellRange)) : Bool :=
  match batches.foldlM RangeBuilder.add (.new sampleFormat) >>= RangeBuilder.finish with
  | .ok t => t.data.length < 1000 && t.blockCount < 100
  | .error _ => false

lemma exists_built_of_samplesBuild (h : samplesBuild batches = true) :
    ∃ t, (batches.foldlM RangeBuilder.add (.new sampleFormat) >>= RangeBuilder.finish) = .ok t ∧
      ∀ timestamp, (t.image timestamp).length ≤ Folder.maxFileSize := by
  rw [samplesBuild] at h
  cases hbuild : batches.foldlM RangeBuilder.add (.new sampleFormat) >>= RangeBuilder.finish with
  | error error => simp [hbuild] at h
  | ok t =>
    obtain ⟨hdata, hcount⟩ : t.data.length < 1000 ∧ t.blockCount < 100 := by
      simpa [hbuild] using h
    refine ⟨t, rfl, fun timestamp => ?_⟩
    rw [Builder.length_image, Folder.maxFileSize, Header.size, DirectoryEntry.size]
    omega

lemma exists_sample_session (h : samplesBuild batches = true) :
    ∃ w folder₁ w' folder₂ folder₃,
      create .empty ⟨["cells"]⟩ sampleFormat = .ok (w, folder₁) ∧
        Accepts w folder₁ batches w' folder₂ ∧ w'.close folder₂ 0 = (.ok (), folder₃) := by
  have hreserve := @Folder.reserve_empty ⟨["cells"]⟩ (by decide +kernel) (by decide +kernel)
  obtain ⟨t, hbuild, hsize⟩ := exists_built_of_samplesBuild h
  obtain ⟨w, w', folder₃, hcreate, haccepts, hclose⟩ := exists_session hreserve hbuild
    (by decide +kernel) (by decide +kernel) (by decide +kernel) (hsize 0)
  exact ⟨w, _, w', _, folder₃, hcreate, haccepts, hclose⟩

/-! ## What the file of a session gives back -/

/-- The file of a session gives back its format and the ranges of all batches in their order, and
every prefix leads to the ranges that begin with it. -/
theorem read_written (hcreate : create folder target f = .ok (w, folder₁))
    (hwrite : Accepts w folder₁ batches w' folder₂)
    (hclose : w'.close folder₂ timestamp = (.ok (), folder₃)) :
    ∃ bytes r, folder₃.read target = .ok bytes ∧ RangeFile.ofBytes bytes = .ok r ∧
      r.format = f ∧
      r.ranges = batches.flatten.map (fun range => .ok (range.stored f)) ∧
      r.tableCount = (batches.flatten.map fun range => f.prefixOf range.start).dedup.length ∧
      ∀ p, p.toNat ≤ f.maxPrefix → ∃ table, r.prefixTable p = .ok table ∧
        table.tablePrefix = p ∧
        (table.isPopulated = true ↔ ∃ range ∈ batches.flatten, f.prefixOf range.start = p) ∧
        table.size = (rangesOfPrefix f batches.flatten p).length ∧
        ∀ index, table.entryAt index =
          match (rangesOfPrefix f batches.flatten p)[index]? with
          | some range => .ok ⟨index, range.stored f⟩
          | none =>
            .error (.indexOutOfBounds index (rangesOfPrefix f batches.flatten p).length) := by
  obtain ⟨bytes, r, hread, hr, rfl, hfile⟩ := exists_file_of_session hcreate hwrite hclose
  refine ⟨bytes, r, hread, hr, rfl, hfile.ranges_eq, hfile.tableCount_eq, fun p hp => ?_⟩
  refine ⟨_, hfile.prefixTable_eq p hp, PrefixTable.tablePrefix_ofRanges .., ?_, ?_, ?_⟩
  · exact PrefixTable.isPopulated_ofRanges
  · exact PrefixTable.size_ofRanges ..
  · exact PrefixTable.entryAt_ofRanges hfile.storable

/-- Two batches, each with a prefix of its own. -/
theorem read_written_two_batches :
    ∃ w folder₁ w' folder₂ folder₃,
      create .empty ⟨["cells"]⟩ sampleFormat = .ok (w, folder₁) ∧
        Accepts w folder₁ [[sampleRange 0 2 7], [sampleRange 2 3 7, sampleRange 3 4 8]] w' folder₂ ∧
        w'.close folder₂ 0 = (.ok (), folder₃) ∧
        ∃ bytes r, folder₃.read ⟨["cells"]⟩ = .ok bytes ∧ RangeFile.ofBytes bytes = .ok r ∧
          r.ranges =
            [.ok (sampleRange 0 2 7), .ok (sampleRange 2 3 7), .ok (sampleRange 3 4 8)] ∧
          r.tableCount = 2 := by
  obtain ⟨w, folder₁, w', folder₂, folder₃, hcreate, hwrite, hclose⟩ := @exists_sample_session
    [[sampleRange 0 2 7], [sampleRange 2 3 7, sampleRange 3 4 8]] (by decide +kernel)
  obtain ⟨bytes, r, hread, hr, -, hranges, hcount, -⟩ := read_written hcreate hwrite hclose
  refine ⟨w, folder₁, w', folder₂, folder₃, hcreate, hwrite, hclose, bytes, r, hread, hr, ?_, ?_⟩
  · rw [hranges]
    rfl
  · rw [hcount]
    decide +kernel

/-- A look-up in the file of a session is a scan of the ranges of all batches for the cell that the
id belongs to, which at most one of them holds. -/
theorem find_written (hcreate : create folder target f = .ok (w, folder₁))
    (hwrite : Accepts w folder₁ batches w' folder₂)
    (hclose : w'.close folder₂ timestamp = (.ok (), folder₃)) :
    ∃ bytes r, folder₃.read target = .ok bytes ∧ RangeFile.ofBytes bytes = .ok r ∧
      ∀ id,
        r.find id = .ok ((batches.flatten.find? (·.Contains (f.cellAt (f.position id)))).map
          (·.stored f)) ∧
        batches.flatten.countP (·.Contains (f.cellAt (f.position id))) ≤ 1 := by
  obtain ⟨bytes, r, hread, hr, rfl, hfile⟩ := exists_file_of_session hcreate hwrite hclose
  exact ⟨bytes, r, hread, hr, fun id =>
    ⟨hfile.find_eq id, countP_contains_le_one hfile.pairwise _⟩⟩

/-- A cell in the second range of its prefix, a cell of a finer level, and an id of no face. -/
theorem find_written_two_batches :
    ∃ w folder₁ w' folder₂ folder₃,
      create .empty ⟨["cells"]⟩ sampleFormat = .ok (w, folder₁) ∧
        Accepts w folder₁ [[sampleRange 0 2 7], [sampleRange 2 3 7, sampleRange 3 4 8]] w' folder₂ ∧
        w'.close folder₂ 0 = (.ok (), folder₃) ∧
        ∃ bytes r, folder₃.read ⟨["cells"]⟩ = .ok bytes ∧ RangeFile.ofBytes bytes = .ok r ∧
          r.find (sampleFormat.cellAt 3) = .ok (some (sampleRange 3 4 8)) ∧
          r.find (.ofNat 1) = .ok (some (sampleRange 0 2 7)) ∧
          r.find (.ofNat (2 ^ 64 - 1)) = .ok none := by
  obtain ⟨w, folder₁, w', folder₂, folder₃, hcreate, hwrite, hclose⟩ := @exists_sample_session
    [[sampleRange 0 2 7], [sampleRange 2 3 7, sampleRange 3 4 8]] (by decide +kernel)
  obtain ⟨bytes, r, hread, hr, hfind⟩ := find_written hcreate hwrite hclose
  refine ⟨w, folder₁, w', folder₂, folder₃, hcreate, hwrite, hclose, bytes, r, hread, hr,
    ?_, ?_, ?_⟩
  · rw [(hfind _).1]
    decide +kernel
  · rw [(hfind _).1]
    decide +kernel
  · rw [(hfind _).1]
    decide +kernel

end CellIndex.RangeWriter
