import CellIndex.Proofs.Format.Header
import CellIndex.Proofs.Guarded.SuffixTable
import CellIndex.Proofs.Guarded.Table
import CellIndex.Proofs.RangeFile.Robust
import CellIndex.Proofs.RangeFile.Session

/-!
# Reading range files in guarded steps

The whole reader: the header block is read field by field, the numbers of the blocks are checked
once, and every question after that is one about a prefix.  No run of bytes makes a step leave its
word or its bytes (**`RangeFile.ofBytes_safe`**): the offset of a block number can be subtracted
since strays have been refused, and the prefix of a table is in its bounds since it has been
compared with the one that was asked for.
-/

namespace CellIndex

variable {f : Format} {bytes : Bytes}

namespace Guarded

/-! ## The header block -/

/-- The first rule that parameters break. -/
def findFault (p : Params) : Guarded (Option FormatFault) :=
  let level := p.level.toNat
  let prefixBits := p.prefixBits.toNat
  let suffixBits := p.suffixBits.toNat
  let offset := p.blockOffset.toNat
  let recordBits := p.recordBits.toNat
  let valueBytes := p.valueBytes.toNat
  if CellId.maxLevel < level then pure (some (.level level))
  else do
    let path ← product 32 2 level
    let dataBits ← sum 32 3 path
    if checked 32 (prefixBits + suffixBits) ≠ some dataBits then
      pure (some (.bitSum prefixBits suffixBits dataBits level))
    else if prefixBits < 3 ∨ 32 < prefixBits then pure (some (.prefixBits prefixBits))
    else if suffixBits = 0 then pure (some .noSuffixBits)
    else if offset = 0 then pure (some .noBlockOffset)
    else do
      let last ← sum 64 (2 ^ prefixBits - 1) offset
      if 2 ^ 32 ≤ last then pure (some (.blockOffset offset))
      else if recordBits % 8 ≠ 0 ∨ recordBits ≤ suffixBits ∨ 64 < recordBits then
        pure (some (.recordBits recordBits suffixBits))
      else if 4 < valueBytes then pure (some (.valueBytes valueBytes))
      else if 0 < valueBytes ∧ p.allowedList = false then pure (some .valuesOfDenied)
      else do
        let rest ← difference 64 dataBits
        let _ ← difference rest 1
        pure none

/-- The format of parameters that stand in a header block. -/
def newFormat (p : Params) : Guarded Format := do
  let fault ← findFault p
  match fault with
  | some fault => returns (.error (.corrupt (.headerBlock fault)))
  | none =>
    match Format.ofParams p with
    | .ok format => pure format
    | .error _ => trap

/-- The format that a header block tells. -/
def readFormat (bytes : Bytes) : Guarded Format :=
  if bytes.length < 15 then returns (.error (.corrupt (.headerBlockSize bytes.length)))
  else do
    let layout ← returns (bytes.byteAt 0)
    if Format.headerLayout < layout then returns (.error (.unsupportedVersion layout.toNat))
    else do
      let flags ← returns (bytes.byteAt 13)
      let version ← returns (bytes.read 1 4)
      let level ← returns (bytes.byteAt 5)
      let prefixBits ← returns (bytes.byteAt 6)
      let suffixBits ← returns (bytes.byteAt 7)
      let blockOffset ← returns (bytes.read 8 4)
      let recordBits ← returns (bytes.byteAt 12)
      let valueBytes ← returns (bytes.byteAt 14)
      newFormat
        { level, valueBytes
          version := UInt32.ofNat version
          prefixBits := prefixBits.toUInt32
          suffixBits := suffixBits.toUInt32
          blockOffset := UInt32.ofNat blockOffset
          recordBits := recordBits.toUInt32
          allowedList := flags.toNat % 2 = 1 }

/-- No number is lost where parameters are judged. -/
lemma findFault_eq (p : Params) : findFault p = pure p.fault? := by
  have hoffset := p.blockOffset.toNat_lt
  simp only [findFault, Params.fault?, Params.dataBits]
  refine ite_pure_eq fun hlevel => ?_
  rw [CellId.maxLevel, Nat.not_lt] at hlevel
  have hsum : checked 32 (p.prefixBits.toNat + p.suffixBits.toNat) ≠
      some (3 + 2 * p.level.toNat) ↔
        p.prefixBits.toNat + p.suffixBits.toNat ≠ 3 + 2 * p.level.toNat :=
    not_congr (checked_eq_some_iff (by omega))
  rw [product_eq (by omega), pure_bind, sum_eq (by omega), pure_bind]
  simp only [hsum]
  refine ite_pure_eq fun _ => ite_pure_eq fun hprefix => ?_
  refine ite_pure_eq fun _ => ite_pure_eq fun _ => ?_
  have hpow : 2 ^ p.prefixBits.toNat ≤ 2 ^ 32 := Nat.pow_le_pow_right (by decide) (by omega)
  rw [sum_eq (by omega), pure_bind]
  refine ite_pure_eq fun _ => ite_pure_eq fun _ => ite_pure_eq fun _ => ite_pure_eq fun _ => ?_
  rw [difference_eq (by omega), pure_bind, difference_eq (by omega), pure_bind]

lemma newFormat_eq (p : Params) : newFormat p = returns (match Format.ofParams p with
    | .ok format => .ok format
    | .error fault => .error (.corrupt (.headerBlock fault))) := by
  rw [newFormat, findFault_eq, pure_bind]
  split
  · next fault hfault => rw [Format.ofParams_eq_error_iff.2 hfault]
  · next hnone =>
    have hparams := Format.ofParams_params ⟨p, Params.fault?_eq_none_iff.1 hnone⟩
    simp only at hparams
    rw [hparams, returns_ok]

/-- The header block is read inside its bytes. -/
lemma readFormat_eq (bytes : Bytes) : readFormat bytes = returns (Format.ofHeader bytes) := by
  rw [readFormat]
  split
  · next hshort => rw [Format.ofHeader_of_short hshort]
  · next hlong =>
    -- the fifteen bytes of the block, and what is behind them
    obtain ⟨layout, v₃, v₂, v₁, v₀, level, prefixBits, suffixBits, o₃, o₂, o₁, o₀, recordBits,
      flags, valueBytes, rest, rfl⟩ := Format.exists_fields (Nat.not_lt.1 hlong)
    have hbytes : 15 ≤ (layout :: v₃ :: v₂ :: v₁ :: v₀ :: level :: prefixBits :: suffixBits ::
        o₃ :: o₂ :: o₁ :: o₀ :: recordBits :: flags :: valueBytes :: rest).length :=
      Nat.not_lt.1 hlong
    rw [byteAt_eq 0 rfl, returns_ok, pure_bind, Format.ofHeader]
    split
    · rfl
    · rw [byteAt_eq 13 rfl, returns_ok, pure_bind, read_eq (by decide) (by omega),
        returns_ok, pure_bind, byteAt_eq 5 rfl, returns_ok, pure_bind,
        byteAt_eq 6 rfl, returns_ok, pure_bind, byteAt_eq 7 rfl, returns_ok,
        pure_bind, read_eq (by decide) (by omega), returns_ok, pure_bind,
        byteAt_eq 12 rfl, returns_ok, pure_bind, byteAt_eq 14 rfl, returns_ok,
        pure_bind]
      exact newFormat_eq _

/-! ## The file -/

/-- A range file whose blocks are still in its bytes. -/
structure FileView where
  /-- The file with its directory. -/
  table : TableView
  /-- The format that the file tells. -/
  format : Format

/-- The range file that a table is, if it is one. -/
def openTable (table : TableView) : Guarded FileView := do
  let header ← table.find Format.headerBlockId
  match header with
  | none => returns (.error (.corrupt .noHeaderBlock))
  | some header => do
    let format ← readFormat header.data
    let first ← sum 32 0 format.params.blockOffset.toNat
    let last ← sum 32 format.maxPrefix format.params.blockOffset.toNat
    match table.blockIds.find? fun id =>
      decide (id ≠ Format.headerBlockId) && !decide (first ≤ id.toNat ∧ id.toNat ≤ last) with
    | some id => returns (.error (.corrupt (.strayBlock id)))
    | none => pure { table, format }

/-- The range file in a run of bytes. -/
def readFile (bytes : Bytes) : Guarded FileView := readTable bytes >>= openTable

namespace FileView

/-- What the file holds for a prefix. -/
def prefixTable (v : FileView) (p : UInt32) : Guarded PrefixView :=
  if v.format.maxPrefix < p.toNat then
    returns (.error (.invalidArgument (.prefixBits p.toNat v.format.prefixBits)))
  else do
    let id ← sum 32 p.toNat v.format.params.blockOffset.toNat
    let block ← v.table.find (UInt32.ofNat id)
    match block with
    | none => pure (.unpopulated p)
    | some block => do
      let table ← readSuffixTable v.format block
      if table.shared.tablePrefix ≠ p then
        returns (.error (.corrupt (.otherPrefix block.id table.shared.tablePrefix p)))
      else pure (.populated table)

/-- The range that holds a cell. -/
def find (v : FileView) (id : CellId) : Guarded (Option CellRange) := do
  let p ← readPrefix v.format id
  let table ← v.prefixTable p
  let entry ← table.find v.format id
  pure (entry.map Entry.range)

/-- The ranges of a block, or its error. -/
def rangesOf (v : FileView) (id : UInt32) : Guarded (List (Except Error CellRange)) := do
  let p ← difference id.toNat v.format.params.blockOffset.toNat
  let table ← attempt (v.prefixTable (UInt32.ofNat p))
  match table with
  | .error error => pure [.error error]
  | .ok table => do
    let entries ← table.entries v.format
    pure (entries.map fun entry => entry.map Entry.range)

/-- All ranges. -/
def ranges (v : FileView) : Guarded (List (Except Error CellRange)) := do
  let parts ← (v.table.blockIds.filter (· ≠ Format.headerBlockId)).mapM v.rangesOf
  pure parts.flatten

/-- The view stands for a range file: its table does, and no block is a stray. -/
structure Shows (v : FileView) (r : RangeFile) : Prop where
  table : v.table.Shows r.table
  format_eq : v.format = r.format
  isBlockId : ∀ block ∈ r.table.blocks.toList, RangeFile.isBlockId r.format block.id = true

end FileView

/-- The bounds of the block numbers find the strays. -/
lemma isStray_eq (f : Format) : (fun id : UInt32 => decide (id ≠ Format.headerBlockId) &&
    !decide (0 + f.params.blockOffset.toNat ≤ id.toNat ∧
      id.toNat ≤ f.maxPrefix + f.params.blockOffset.toNat)) = (! RangeFile.isBlockId f ·) := by
  funext id
  rw [RangeFile.isBlockId, Nat.zero_add, Bool.decide_or, Bool.not_or, decide_not]

/-- A range file is opened in guarded steps. -/
lemma openTable_mirrors {table : TableView} {t : Table} (h : table.Shows t) :
    Mirrors FileView.Shows (openTable table) (RangeFile.ofTable t) := by
  rw [openTable, h.find_eq, pure_bind]
  cases hfind : t.find? Format.headerBlockId with
  | none =>
    rw [RangeFile.ofTable, hfind]
    exact .error _
  | some header =>
    simp only [readFormat_eq]
    cases hformat : Format.ofHeader header.data with
    | error e =>
      rw [RangeFile.ofTable, hfind]
      simp only [hformat]
      exact .error _
    | ok f =>
      have hoffset := f.params.blockOffset.toNat_lt
      have hlast : f.maxPrefix + f.params.blockOffset.toNat < 2 ^ 32 := f.valid.blockOffset_le
      rw [returns_ok, pure_bind, sum_eq (by omega), pure_bind, sum_eq hlast, pure_bind,
        isStray_eq, h.blockIds_eq]
      cases hstray : t.blockIds.find? (! RangeFile.isBlockId f ·) with
      | some id =>
        rw [RangeFile.ofTable, hfind]
        simp only [hformat, hstray]
        exact .error _
      | none =>
        have hof : RangeFile.ofTable t = .ok { table := t, format := f } := by
          rw [RangeFile.ofTable, hfind]
          simp only [hformat, hstray]
        rw [hof]
        exact .ok ⟨h, rfl, (RangeFile.isBlockId_of_ofTable hof).2⟩

/-- A run of bytes is read as a range file in guarded steps. -/
theorem readFile_mirrors (hlen : bytes.length < 2 ^ 64) :
    Mirrors FileView.Shows (readFile bytes) (RangeFile.ofBytes bytes) :=
  (readTable_mirrors hlen).bind fun _ _ => openTable_mirrors

namespace FileView

variable {v : FileView} {r : RangeFile}

/-- The table of a prefix is read in guarded steps. -/
lemma Shows.prefixTable_mirrors (h : v.Shows r) (p : UInt32) :
    Mirrors (PrefixView.Answers r.format) (v.prefixTable p) (r.prefixTable p) := by
  rw [prefixTable, RangeFile.prefixTable, h.format_eq]
  split
  · exact .error _
  · next hp =>
    have hle := Nat.not_lt.1 hp
    have hid := Format.toNat_blockId hle
    have hlt := (r.format.blockId p).toNat_lt
    rw [sum_eq (by omega), pure_bind, ← hid, UInt32.ofNat_toNat, h.table.find_eq, pure_bind]
    cases hfind : r.table.find? (r.format.blockId p) with
    | none => exact .ok (PrefixView.answers_unpopulated _ _)
    | some block =>
      obtain ⟨hshared, hdata⟩ := h.table.length_lt_of_find? hfind
      simp only
      rcases readSuffixTable_mirrors r.format hshared hdata with
        ⟨e, hread, hof⟩ | ⟨view, table, hread, hof, hview⟩
      · rw [hread, hof]
        exact .error _
      · have hprefix : view.shared.tablePrefix = table.tablePrefix := hview.shared.tablePrefix_eq
        simp only [hread, hof, pure_bind, hprefix]
        split
        · exact .error _
        · next heq =>
          -- the prefix in the block is the one that was asked for, and so in its bounds
          refine .ok (PrefixView.answers_populated hview ?_)
          rwa [not_not.1 heq]

/-- A look-up takes guarded steps. -/
lemma Shows.find_eq (h : v.Shows r) (id : CellId) : v.find id = returns (r.find id) := by
  rw [find, RangeFile.find, h.format_eq, readPrefix_eq, pure_bind]
  rcases h.prefixTable_mirrors (r.format.prefixOf id) with
    ⟨e, hread, hof⟩ | ⟨view, table, hread, hof, hview⟩
  · rw [hread, hof]
    rfl
  · rw [hread, hof, pure_bind, hview.find_eq, pure_bind]
    rfl

/-- The ranges of a block are read in guarded steps. -/
lemma Shows.rangesOf_eq (h : v.Shows r) {id : UInt32} (hid : RangeFile.isBlockId r.format id = true)
    (hne : id ≠ Format.headerBlockId) : v.rangesOf id = pure (r.rangesOf id) := by
  obtain heq | ⟨hlow, -⟩ := of_decide_eq_true hid
  · exact absurd heq hne
  · have hsub : (id - r.format.params.blockOffset).toNat =
        id.toNat - r.format.params.blockOffset.toNat :=
      UInt32.toNat_sub_of_le _ _ (UInt32.le_iff_toNat_le.2 hlow)
    rw [rangesOf, RangeFile.rangesOf, h.format_eq, difference_eq hlow, pure_bind, ← hsub,
      UInt32.ofNat_toNat]
    rcases h.prefixTable_mirrors (id - r.format.params.blockOffset) with
      ⟨e, hread, hof⟩ | ⟨view, table, hread, hof, hview⟩
    · rw [hread, hof, attempt_returns, pure_bind]
    · have hentries := congrArg (List.map (Except.map Entry.range)) table.map_ok_entries
      rw [List.map_map] at hentries
      rw [hread, hof, attempt_pure, pure_bind]
      simp only [hview.entries_eq, pure_bind, ← hentries]
      rfl

/-- All ranges are read in guarded steps. -/
lemma Shows.ranges_eq (h : v.Shows r) : v.ranges = pure r.ranges := by
  have hparts : ∀ id ∈ v.table.blockIds.filter (· ≠ Format.headerBlockId),
      v.rangesOf id = pure (r.rangesOf id) := by
    intro id hid
    obtain ⟨hmem, hne⟩ := List.mem_filter.1 hid
    rw [h.table.blockIds_eq] at hmem
    obtain ⟨block, hb, rfl⟩ := List.mem_map.1 hmem
    exact h.rangesOf_eq (h.isBlockId block hb) (of_decide_eq_true hne)
  rw [ranges, mapM_eq hparts, pure_bind, RangeFile.ranges, h.table.blockIds_eq, List.flatMap_def]

/-- Every question about the file is answered in guarded steps, as the file answers it. -/
structure Answers (v : FileView) (r : RangeFile) : Prop where
  find_eq : ∀ id, v.find id = returns (r.find id)
  prefixTable_mirrors : ∀ p,
    Mirrors (PrefixView.Answers r.format) (v.prefixTable p) (r.prefixTable p)
  ranges_eq : v.ranges = pure r.ranges

lemma Shows.answers (h : v.Shows r) : v.Answers r := ⟨h.find_eq, h.prefixTable_mirrors, h.ranges_eq⟩

end FileView

end Guarded

open Guarded
open RangeWriter (sampleFormat)

namespace RangeFile

/-- **No run of bytes makes the reader unsafe.**  A run of bytes in a buffer is refused with one of
five kinds of errors, or it is a file that answers every question whatever it holds.  Either way the
reader gets there in guarded steps: no sum, product or difference leaves its word, and no slice
leaves its bytes. -/
theorem ofBytes_safe (hlen : bytes.length < 2 ^ 64) :
    (∃ e, ofBytes bytes = .error e ∧ readFile bytes = returns (.error e) ∧ e.Refuses) ∨
      ∃ r v, ofBytes bytes = .ok r ∧ readFile bytes = pure v ∧ r.IsRobust ∧ v.Answers r := by
  rcases readFile_mirrors hlen with ⟨e, hread, hof⟩ | ⟨v, r, hread, hof, hshows⟩
  · exact .inl ⟨e, hof, hread, fails_ofBytes bytes e hof⟩
  · exact .inr ⟨r, v, hof, hread, isRobust_of_ofBytes hof, hshows.answers⟩

/-- A table with two records that are out of order and overlap, the second of which goes on far
beyond its prefix. -/
def unsortedBlocks : Builder where
  blocks := [RangeBuilder.headerBlock sampleFormat,
    { id := 5, shared := [0, 0, 0, 0, 0, 0, 0, 2, 7, 8], data := [0x85, 0x7F] }]
  ids_nodup := by decide

/-- Such a file is read, and so are its two ranges and the one that a look-up ends at. -/
theorem ofBytes_safe_unsorted :
    (unsortedBlocks.image 0).length < 2 ^ 64 ∧
      ∃ r v, ofBytes (unsortedBlocks.image 0) = .ok r ∧
        readFile (unsortedBlocks.image 0) = pure v ∧ r.IsRobust ∧
        v.ranges = pure [.ok ⟨sampleFormat.cellAt 1, sampleFormat.cellAt 6, some 7⟩,
          .ok ⟨sampleFormat.cellAt 0, sampleFormat.cellAt 127, some 8⟩] ∧
        v.find (sampleFormat.cellAt 1) =
          pure (some ⟨sampleFormat.cellAt 0, sampleFormat.cellAt 127, some 8⟩) := by
  have hlen : (unsortedBlocks.image 0).length < 2 ^ 64 := by
    rw [Builder.length_image]
    decide +kernel
  have hsorted : unsortedBlocks.sortedBlocks = unsortedBlocks.blocks :=
    List.mergeSort_of_pairwise (by decide +kernel)
  have htable := @Builder.ofBytes_image unsortedBlocks 0 (by decide +kernel)
    (by decide +kernel) hlen
  rw [hsorted] at htable
  have hfile : ∃ r, ofBytes (unsortedBlocks.image 0) = .ok r ∧
      r.ranges = [.ok ⟨sampleFormat.cellAt 1, sampleFormat.cellAt 6, some 7⟩,
        .ok ⟨sampleFormat.cellAt 0, sampleFormat.cellAt 127, some 8⟩] ∧
      r.find (sampleFormat.cellAt 1) =
        .ok (some ⟨sampleFormat.cellAt 0, sampleFormat.cellAt 127, some 8⟩) := by
    refine ⟨withBlocks sampleFormat (unsortedBlocks.header 0) unsortedBlocks.blocks, ?_,
      by decide +kernel, by decide +kernel⟩
    rw [ofBytes, htable]
    exact ofTable_withBlocks _ (by decide) List.mem_cons_self (by decide)
  obtain ⟨r, hof, hranges, hfind⟩ := hfile
  refine ⟨hlen, ?_⟩
  rcases ofBytes_safe hlen with ⟨e, herror, -⟩ | ⟨r', v, hof', hread, hrobust, hanswers⟩
  · rw [hof] at herror
    cases herror
  · obtain rfl : r' = r := Except.ok.inj (hof'.symm.trans hof)
    refine ⟨r', v, hof, hread, hrobust, ?_, ?_⟩
    · rw [hanswers.ranges_eq, hranges]
    · rw [hanswers.find_eq, hfind, returns_ok]

end RangeFile

end CellIndex
