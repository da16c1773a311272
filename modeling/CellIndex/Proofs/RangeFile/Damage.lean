import CellIndex.Proofs.RangeFile.Session
import CellIndex.Proofs.Table.Grammar

/-!
# Files with a damaged header

The checksum of a table does not cover its header, so other bytes may stand there without being
noticed.  For a plain table they can change what is read: the directory only has to end the file, so
it may lose its first entries, or gain some from the data in front of it.  For a range file they
cannot.  The header block has the least number of all and stands first in every directory that is
accepted.  A directory that has lost entries has lost the header block, and one that has gained
entries has some in front of it (`entryCount_le_of_body`).

So a range file whose header has been replaced is refused or gives the same answers as before
(**`read_damaged`**).
-/

namespace CellIndex

open Sequence
open Table.Grammar

/-- Behind a common end, the fields of two runs of bytes are the same. -/
lemma Bytes.slice_eq_of_drop {bytes damaged : Bytes} {n offset width : Nat}
    (h : damaged.drop n = bytes.drop n) (hoffset : n ≤ offset) :
    damaged.slice offset width = bytes.slice offset width := by
  obtain ⟨skip, rfl⟩ := Nat.exists_eq_add_of_le hoffset
  rw [slice, slice, ← List.drop_drop, ← List.drop_drop, h]

namespace Table

variable {bytes damaged : Bytes} {index index' : Nat} {t t' : Table}

/-! ## Two tables with the same bytes after the header -/

section Body

variable (hbody : damaged.drop 64 = bytes.drop 64)
include hbody

/-- Two directories have the same entry at the same place of the file. -/
lemma entryAt_eq_of_body (hplace : entryStart damaged index' = entryStart bytes index)
    (hstart : 64 ≤ entryStart bytes index) : entryAt damaged index' = entryAt bytes index := by
  obtain ⟨skip, hskip⟩ := Nat.exists_eq_add_of_le hstart
  rw [entryAt, entryAt, hplace, hskip, ← List.drop_drop, ← List.drop_drop, hbody]

/-- The same entry delimits the same block. -/
lemma blockAt_eq_of_body (hentry : entryAt damaged index' = entryAt bytes index)
    (hinside : Inside bytes index) : blockAt damaged index' = blockAt bytes index := by
  have hoffset : 64 ≤ (entryAt bytes index).offset.toNat := by
    rw [toNat_offset_entryAt]
    exact hinside.1
  rw [← block_entryAt, ← block_entryAt, hentry, DirectoryEntry.block, DirectoryEntry.block,
    Bytes.slice_eq_of_drop hbody hoffset,
    Bytes.slice_eq_of_drop hbody (Nat.le_trans hoffset (Nat.le_add_right _ _))]

lemma length_eq_of_body (h : ∀ rule : Rule, rule.Holds bytes)
    (h' : ∀ rule : Rule, rule.Holds damaged) : damaged.length = bytes.length := by
  have hlong : 64 ≤ bytes.length := h .header
  have hlong' : 64 ≤ damaged.length := h' .header
  have hlength := congrArg List.length hbody
  rw [List.length_drop, List.length_drop] at hlength
  omega

/-- Before the least number of all, a directory has no room for further entries. -/
lemma entryCount_le_of_body (h : ∀ rule : Rule, rule.Holds bytes)
    (h' : ∀ rule : Rule, rule.Holds damaged)
    (hleast : ∃ index < entryCount bytes, idAt bytes index = 0) :
    entryCount damaged ≤ entryCount bytes := by
  obtain ⟨index, hindex, hid⟩ := hleast
  obtain ⟨hstart, hend⟩ : 64 ≤ directoryStart bytes ∧
    directoryStart bytes + 24 * entryCount bytes = bytes.length := h .directoryEnd
  obtain ⟨-, hend'⟩ : 64 ≤ directoryStart damaged ∧
    directoryStart damaged + 24 * entryCount damaged = damaged.length := h' .directoryEnd
  have hsound : Sound damaged (entryCount damaged) := h' .directory
  have hlength := length_eq_of_body hbody h h'
  by_contra hlt
  obtain ⟨more, hmore⟩ := Nat.exists_eq_add_of_lt (Nat.not_le.1 hlt)
  -- counted from the end of the file, the entry with the least number is the same in both
  have hentry : entryAt damaged (index + (more + 1)) = entryAt bytes index :=
    entryAt_eq_of_body hbody (by unfold entryStart; omega) (by unfold entryStart; omega)
  have hid' : idAt damaged (index + (more + 1)) = 0 := by
    rw [← toNat_blockId_entryAt, hentry, toNat_blockId_entryAt, hid]
  have hascending := hsound.ascending 0 (index + (more + 1)) (by omega) (by omega)
  omega

/-- Two tables that both have a block with the least number have the same directory. -/
lemma sameDirectory_of_body (h : ∀ rule : Rule, rule.Holds bytes)
    (h' : ∀ rule : Rule, rule.Holds damaged)
    (hleast : ∃ index < entryCount bytes, idAt bytes index = 0)
    (hleast' : ∃ index < entryCount damaged, idAt damaged index = 0) :
    entryCount damaged = entryCount bytes ∧ directoryStart damaged = directoryStart bytes := by
  have hcount : entryCount damaged = entryCount bytes :=
    Nat.le_antisymm (entryCount_le_of_body hbody h h' hleast)
      (entryCount_le_of_body hbody.symm h' h hleast')
  have hlength := length_eq_of_body hbody h h'
  obtain ⟨-, hend⟩ : 64 ≤ directoryStart bytes ∧
    directoryStart bytes + 24 * entryCount bytes = bytes.length := h .directoryEnd
  obtain ⟨-, hend'⟩ : 64 ≤ directoryStart damaged ∧
    directoryStart damaged + 24 * entryCount damaged = damaged.length := h' .directoryEnd
  exact ⟨hcount, by omega⟩

lemma entryAt_eq_of_sameStart (h : ∀ rule : Rule, rule.Holds bytes)
    (hstart : directoryStart damaged = directoryStart bytes) (index : Nat) :
    entryAt damaged index = entryAt bytes index := by
  obtain ⟨hafter, -⟩ : 64 ≤ directoryStart bytes ∧
    directoryStart bytes + 24 * entryCount bytes = bytes.length := h .directoryEnd
  exact entryAt_eq_of_body hbody (by unfold entryStart; omega) (by unfold entryStart; omega)

/-- Two tables with the same directory have the same blocks. -/
lemma blocks_eq_of_sameDirectory (h : Table.ofBytes bytes = .ok t)
    (h' : Table.ofBytes damaged = .ok t') (hcount : entryCount damaged = entryCount bytes)
    (hstart : directoryStart damaged = directoryStart bytes) : t'.blocks = t.blocks := by
  obtain ⟨hrules, hblocks⟩ := rules_of_ofBytes h
  obtain ⟨-, hblocks'⟩ := rules_of_ofBytes h'
  have hsound : Sound bytes (entryCount bytes) := hrules .directory
  apply Array.toList_inj.1
  rw [hblocks, hblocks', hcount]
  refine List.map_congr_left fun index hindex => ?_
  exact blockAt_eq_of_body hbody (entryAt_eq_of_sameStart hbody hrules hstart index)
    (hsound.inside index (List.mem_range.1 hindex))

/-- A sound directory stays sound if the header still leads to it. -/
lemma sound_of_sameStart (h : ∀ rule : Rule, rule.Holds bytes)
    (hstart : directoryStart damaged = directoryStart bytes) :
    Sound damaged (entryCount bytes) := by
  have hsound : Sound bytes (entryCount bytes) := h .directory
  have hentry := entryAt_eq_of_sameStart hbody h hstart
  refine ⟨fun index hindex => ?_, fun index later hlt hlater => ?_⟩
  · rw [← inBounds_entryAt_iff, hentry, hstart, inBounds_entryAt_iff]
    exact hsound.inside index hindex
  · rw [← toNat_blockId_entryAt, ← toNat_blockId_entryAt, hentry, hentry, toNat_blockId_entryAt,
      toNat_blockId_entryAt]
    exact hsound.ascending index later hlt hlater

end Body

end Table

namespace RangeFile

variable {bytes damaged front : Bytes} {r r' : RangeFile} {header : Header}

/-- The file with another header in front. -/
def withHeader (r : RangeFile) (header : Header) : RangeFile :=
  { r with table := { r.table with header } }

/-- No answer of a file depends on the header of its table. -/
lemma prefixTable_withHeader (p : UInt32) :
    (r.withHeader header).prefixTable p = r.prefixTable p := by
  have hfind : (r.withHeader header).table.find? ((r.withHeader header).format.blockId p) =
      r.table.find? (r.format.blockId p) := rfl
  rw [prefixTable.eq_def, prefixTable.eq_def, hfind]
  cases r.table.find? (r.format.blockId p) with
  | none => rfl
  | some block =>
    have hread : SuffixTable.ofBlock (r.withHeader header).format block =
        SuffixTable.ofBlock r.format block := rfl
    cases htable : SuffixTable.ofBlock r.format block with
    | error e =>
      simp only [hread.trans htable, htable]
      rfl
    | ok table =>
      simp only [hread.trans htable, htable]
      rfl

lemma find_withHeader (id : CellId) : (r.withHeader header).find id = r.find id := by
  rw [find, find]
  exact congrArg (Except.map fun table => (table.find id).map Entry.range)
    (prefixTable_withHeader _)

lemma rangesOf_withHeader (id : UInt32) : (r.withHeader header).rangesOf id = r.rangesOf id := by
  have hsame : (r.withHeader header).prefixTable
      (id - (r.withHeader header).format.params.blockOffset) =
        r.prefixTable (id - r.format.params.blockOffset) := prefixTable_withHeader _
  rw [rangesOf, rangesOf]
  cases htable : r.prefixTable (id - r.format.params.blockOffset) with
  | error e => simp only [hsame.trans htable]
  | ok table =>
    simp only [hsame.trans htable]
    rfl

lemma ranges_withHeader : (r.withHeader header).ranges = r.ranges := by
  rw [ranges, funext fun id => @rangesOf_withHeader r header id]
  rfl

/-- Whether a table is a range file depends on its blocks alone. -/
lemma ofTable_withHeader (table : Table) (header : Header) :
    ofTable { table with header } = (ofTable table).map (·.withHeader header) := by
  have hfind : Table.find? { table with header } Format.headerBlockId =
      table.find? Format.headerBlockId := rfl
  have hids : Table.blockIds { table with header } = table.blockIds := rfl
  rw [ofTable, ofTable, hfind, hids]
  cases table.find? Format.headerBlockId with
  | none => rfl
  | some block =>
    cases hformat : Format.ofHeader block.data with
    | error e =>
      simp only [hformat]
      rfl
    | ok f =>
      simp only [hformat]
      cases table.blockIds.find? (! isBlockId f ·) with
      | none => rfl
      | some id => rfl

/-- The directory of a range file has an entry for the header block, whose number is the least. -/
lemma exists_idAt_eq_zero {table : Table} (hread : Table.ofBytes bytes = .ok table)
    (hfile : ofTable table = .ok r) : ∃ index < entryCount bytes, idAt bytes index = 0 := by
  rw [ofTable] at hfile
  cases hfind : table.find? Format.headerBlockId with
  | none =>
    rw [hfind] at hfile
    cases hfile
  | some block =>
    obtain ⟨hmem, hid⟩ := Table.mem_of_find? hfind
    rw [(Table.rules_of_ofBytes hread).2] at hmem
    obtain ⟨index, hindex, rfl⟩ := List.mem_map.1 hmem
    refine ⟨index, List.mem_range.1 hindex, ?_⟩
    rw [← Table.toNat_id_blockAt, hid]
    rfl

/-- The header of the damaged bytes says of the table what the old one does.  It may tell another
time, and a version that can be read as well. -/
structure Harmless (bytes damaged : Bytes) : Prop where
  magic : damaged.slice 0 8 = bytes.slice 0 8
  version : version damaged ≤ 1
  entryCount : entryCount damaged = entryCount bytes
  directoryStart : directoryStart damaged = directoryStart bytes
  checksum : checksum damaged = checksum bytes

/-- The bytes with another time in the header. -/
def redated (bytes stamp : Bytes) : Bytes := bytes.take 24 ++ stamp ++ bytes.slice 32 32

lemma length_redated {stamp : Bytes} (hlong : 64 ≤ bytes.length) (hstamp : stamp.length = 8) :
    (redated bytes stamp).length = 64 := by
  rw [redated, List.length_append, List.length_append, List.length_take,
    Bytes.length_slice (by omega), hstamp]
  omega

/-- Another time in the header does no harm. -/
lemma harmless_redated {stamp rest : Bytes} (hlong : 64 ≤ bytes.length)
    (hstamp : stamp.length = 8) (hversion : version bytes ≤ 1) :
    Harmless bytes (redated bytes stamp ++ rest) := by
  have hearly : ∀ offset width, offset + width ≤ 24 →
      (redated bytes stamp ++ rest).slice offset width = bytes.slice offset width := by
    intro offset width hle
    have htake : (bytes.take 24).length = 24 := by
      rw [List.length_take]
      omega
    rw [redated, List.append_assoc, List.append_assoc, Bytes.slice,
      List.drop_append_of_le_length (by omega),
      List.take_append_of_le_length (by rw [List.length_drop]; omega), List.drop_take,
      List.take_take, Nat.min_eq_left (by omega)]
    rfl
  have hlate : (redated bytes stamp ++ rest).slice 32 32 = bytes.slice 32 32 := by
    rw [redated, List.append_assoc (bytes.take 24 ++ stamp)]
    refine Bytes.slice_at ?_ (Bytes.length_slice (by omega))
    rw [List.length_append, List.length_take, hstamp]
    omega
  refine ⟨hearly 0 8 (by omega), ?_, ?_, ?_, hlate⟩
  · rwa [Table.Grammar.version, Bytes.number, hearly 8 4 (by omega)]
  · rw [Table.Grammar.entryCount, Bytes.number, hearly 12 4 (by omega)]
    rfl
  · rw [Table.Grammar.directoryStart, Bytes.number, hearly 16 8 (by omega)]
    rfl

section Damaged

variable (hread : ofBytes bytes = .ok r) (hbody : damaged.drop 64 = bytes.drop 64)
include hread hbody

/-- A file with the same bytes after the header is the same file, but for its header. -/
lemma eq_withHeader_of_body (hread' : ofBytes damaged = .ok r') :
    Harmless bytes damaged ∧ r' = r.withHeader r'.table.header := by
  obtain ⟨table, htable, hfile⟩ := bind_eq_ok.1 hread
  obtain ⟨table', htable', hfile'⟩ := bind_eq_ok.1 hread'
  obtain ⟨hrules, -⟩ := Table.rules_of_ofBytes htable
  obtain ⟨hrules', -⟩ := Table.rules_of_ofBytes htable'
  obtain ⟨hcount, hstart⟩ := Table.sameDirectory_of_body hbody hrules hrules'
    (exists_idAt_eq_zero htable hfile) (exists_idAt_eq_zero htable' hfile')
  have hblocks := Table.blocks_eq_of_sameDirectory hbody htable htable' hcount hstart
  have hchecksum : (Sha256.digest (bytes.drop 64)).1 = checksum bytes := hrules .checksum
  have hchecksum' : (Sha256.digest (damaged.drop 64)).1 = checksum damaged := hrules' .checksum
  refine ⟨⟨(hrules' .magic).trans (hrules .magic).symm, hrules' .version, hcount, hstart, ?_⟩, ?_⟩
  · rw [← hchecksum, ← hchecksum', hbody]
  · have hsame : table' = { table with header := table'.header } := by
      rw [← hblocks]
    rw [hsame, ofTable_withHeader, hfile] at hfile'
    obtain rfl := Except.ok.inj hfile'
    rfl

/-- A file is still read if the new header says the same. -/
lemma exists_ofBytes_of_harmless (hlong : 64 ≤ damaged.length) (h : Harmless bytes damaged) :
    ∃ r', ofBytes damaged = .ok r' := by
  obtain ⟨table, htable, hfile⟩ := bind_eq_ok.1 hread
  obtain ⟨hrules, -⟩ := Table.rules_of_ofBytes htable
  have hrules' : ∀ rule : Rule, rule.Holds damaged := by
    intro rule
    cases rule with
    | header => exact hlong
    | magic => exact h.magic.trans (hrules .magic)
    | version => exact h.version
    | checksum =>
      have hchecksum : (Sha256.digest (bytes.drop 64)).1 = checksum bytes := hrules .checksum
      change (Sha256.digest (damaged.drop 64)).1 = checksum damaged
      rw [h.checksum, ← hchecksum, hbody]
    | directoryEnd =>
      have hlong' : 64 ≤ bytes.length := hrules .header
      have hlength := congrArg List.length hbody
      rw [List.length_drop, List.length_drop] at hlength
      have hend := hrules .directoryEnd
      simp only [Rule.Holds, h.directoryStart, h.entryCount] at hend ⊢
      omega
    | directory =>
      change Sound damaged (entryCount damaged)
      rw [h.entryCount]
      exact Table.sound_of_sameStart hbody hrules h.directoryStart
  obtain ⟨table', htable'⟩ := Table.exists_ofBytes_of_rules hrules'
  have hblocks :=
    Table.blocks_eq_of_sameDirectory hbody htable htable' h.entryCount h.directoryStart
  have hsame : table' = { table with header := table'.header } := by
    rw [← hblocks]
  refine ⟨r.withHeader table'.header, ?_⟩
  rw [ofBytes, htable']
  change ofTable table' = _
  rw [hsame, ofTable_withHeader, hfile]
  rfl

end Damaged

end RangeFile

namespace RangeWriter

variable {f : Format} {folder folder₁ folder₂ folder₃ : Folder} {target : Path}
  {w w' : RangeWriter} {batches : List (List CellRange)} {timestamp : Int64}

/-- **A damaged header changes no answer.**  If the first 64 bytes of a published file are replaced,
the file is refused, or it is read with the same format and the same blocks, finds the same range
for every id and gives back the same ranges.  It is read exactly if the new header says of the table
what the old one does. -/
theorem read_damaged (hcreate : create folder target f = .ok (w, folder₁))
    (hwrite : Accepts w folder₁ batches w' folder₂)
    (hclose : w'.close folder₂ timestamp = (.ok (), folder₃)) :
    ∃ bytes r, folder₃.read target = .ok bytes ∧ RangeFile.ofBytes bytes = .ok r ∧
      ∀ front : Bytes, front.length = 64 →
        ((∃ e, RangeFile.ofBytes (front ++ bytes.drop 64) = .error e) ∨
          ∃ r', RangeFile.ofBytes (front ++ bytes.drop 64) = .ok r' ∧ r'.format = r.format ∧
            r'.table.blockIds = r.table.blockIds ∧ (∀ id, r'.find id = r.find id) ∧
            r'.ranges = r.ranges) ∧
        ((∃ r', RangeFile.ofBytes (front ++ bytes.drop 64) = .ok r') ↔
          RangeFile.Harmless bytes (front ++ bytes.drop 64)) := by
  obtain ⟨bytes, r, hread, hr, -, -⟩ := exists_file_of_session hcreate hwrite hclose
  refine ⟨bytes, r, hread, hr, fun front hfront => ?_⟩
  have hbody : (front ++ bytes.drop 64).drop 64 = bytes.drop 64 := List.drop_left' hfront
  refine ⟨?_, ?_, ?_⟩
  · cases hr' : RangeFile.ofBytes (front ++ bytes.drop 64) with
    | error e => exact .inl ⟨e, rfl⟩
    | ok r' =>
      obtain ⟨-, hsame⟩ := RangeFile.eq_withHeader_of_body hr hbody hr'
      rw [hsame]
      exact .inr ⟨_, rfl, rfl, rfl, RangeFile.find_withHeader, RangeFile.ranges_withHeader⟩
  · rintro ⟨r', hr'⟩
    exact (RangeFile.eq_withHeader_of_body hr hbody hr').1
  · intro hharmless
    refine RangeFile.exists_ofBytes_of_harmless hr hbody ?_ hharmless
    rw [List.length_append, hfront]
    exact Nat.le_add_right _ _

/-- A file with two prefixes, with zeros for its header and with another time in it. -/
theorem read_damaged_two_batches :
    ∃ w folder₁ w' folder₂ folder₃,
      create .empty ⟨["cells"]⟩ sampleFormat = .ok (w, folder₁) ∧
        Accepts w folder₁ [[sampleRange 0 2 7], [sampleRange 2 3 7, sampleRange 3 4 8]] w' folder₂ ∧
        w'.close folder₂ 0 = (.ok (), folder₃) ∧
        ∃ bytes r, folder₃.read ⟨["cells"]⟩ = .ok bytes ∧ RangeFile.ofBytes bytes = .ok r ∧
          (∃ e, RangeFile.ofBytes (List.replicate 64 0 ++ bytes.drop 64) = .error e) ∧
          ∃ r', RangeFile.ofBytes
              (RangeFile.redated bytes [0, 0, 0, 0, 0, 0, 0, 1] ++ bytes.drop 64) = .ok r' ∧
            r'.ranges = r.ranges := by
  obtain ⟨w, folder₁, w', folder₂, folder₃, hcreate, hwrite, hclose⟩ := @exists_sample_session
    [[sampleRange 0 2 7], [sampleRange 2 3 7, sampleRange 3 4 8]] (by decide +kernel)
  obtain ⟨bytes, r, hread, hr, hdamaged⟩ := read_damaged hcreate hwrite hclose
  obtain ⟨table, htable, -⟩ := bind_eq_ok.1 hr
  obtain ⟨hrules, -⟩ := Table.rules_of_ofBytes htable
  refine ⟨w, folder₁, w', folder₂, folder₃, hcreate, hwrite, hclose, bytes, r, hread, hr, ?_, ?_⟩
  · obtain ⟨herror | ⟨r', hr', -⟩, hiff⟩ := hdamaged (List.replicate 64 0) List.length_replicate
    · exact herror
    · -- the zeros do not begin with the magic letters
      have hzeros : Bytes.slice (List.replicate 64 0 ++ bytes.drop 64) 0 8 =
          List.replicate 8 0 := rfl
      have hmagic := (hiff.1 ⟨r', hr'⟩).magic.trans (hrules .magic)
      rw [hzeros] at hmagic
      exact absurd hmagic (by decide +kernel)
  · obtain ⟨herror | ⟨r', hr', -, -, -, hranges⟩, hiff⟩ := hdamaged _
      (@RangeFile.length_redated _ [0, 0, 0, 0, 0, 0, 0, 1] (hrules .header) rfl)
    · obtain ⟨e, herror⟩ := herror
      obtain ⟨r', hr'⟩ := hiff.2
        (RangeFile.harmless_redated (hrules .header) rfl (hrules .version))
      rw [herror] at hr'
      cases hr'
    · exact ⟨r', hr', hranges⟩

end RangeWriter

end CellIndex
