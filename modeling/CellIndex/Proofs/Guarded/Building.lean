import CellIndex.Proofs.Guarded.Merge
import CellIndex.Proofs.Guarded.SuffixTable
import CellIndex.Proofs.RangeFile.Accepting

/-!
# Building range files in guarded steps

Checking a range and writing a suffix table come down to positions, whose differences are lengths,
and to records, which are a suffix above a length.  Suffix and length have the bits of a record
together, and records are whole bytes, at most eight of them; so a packed record always fits
(`addRecord_eq`), and appending it never fails.

With merging this is all the arithmetic of building a file, and it never leaves its words, whatever
the format, the cells and the ranges are (**`Format.building_safe`**).
-/

namespace CellIndex

namespace Guarded

variable {f : Format} {id : CellId} {bytes : Bytes} {range : CellRange} {width n : Nat}

/-! ## Parts of ids -/

/-- Whether an id has marker and zeros where the cells of the level have them. -/
def isBoundary (f : Format) (id : CellId) : Guarded Bool := do
  let marker ← shiftLeft 64 1 f.tailBits
  let below ← difference marker 1
  pure (decide (id.toNat &&& (marker ||| below) = marker))

/-- The lower significant bits of an id. -/
def maskSuffix (f : Format) (id : CellId) : Guarded Nat := do
  let position ← readPosition f id
  let mask ← largest f.suffixBits
  pure (position &&& mask)

/-- The number of cells from one id up to another, zero if the other does not come later. -/
def rangeLength (f : Format) (start stop : CellId) : Guarded Nat := do
  let behind ← readPosition f stop
  let first ← readPosition f start
  pure (behind - first)

/-- The number of the block for the prefix of an id. -/
def prefixBlock (f : Format) (id : CellId) : Guarded UInt32 := do
  let tablePrefix ← readPrefix f id
  let number ← sum 32 tablePrefix.toNat f.params.blockOffset.toNat
  pure (UInt32.ofNat number)

/-- The largest value that can be stored. -/
def maxValue (f : Format) : Guarded Nat :=
  if f.valueBytes = 0 then pure 0
  else if 4 ≤ f.valueBytes then pure 0x7FFFFFFF
  else do
    let bits ← product 32 8 f.valueBytes
    largest bits

lemma isBoundary_eq (f : Format) (id : CellId) :
    isBoundary f id = pure (decide (f.IsBoundary id)) := by
  have hbits := f.bits_eq
  have hlow : 3 ≤ f.prefixBits := f.valid.prefixBits_ge
  have hpos := Nat.two_pow_pos f.tailBits
  have hmask : 2 ^ f.tailBits ||| (2 ^ f.tailBits - 1) = 2 ^ (f.tailBits + 1) - 1 := by
    have hor := Nat.two_pow_add_eq_or_of_lt (Nat.sub_one_lt_of_lt hpos) 1
    rw [Nat.mul_one] at hor
    rw [← hor, Nat.pow_succ]
    omega
  rw [isBoundary, shiftLeft_one (by omega), pure_bind, difference_eq hpos, pure_bind, hmask,
    Nat.and_two_pow_sub_one_eq_mod]
  rfl

lemma maskSuffix_eq (f : Format) (id : CellId) : maskSuffix f id = pure (f.suffixOf id) := by
  rw [maskSuffix, readPosition_eq, pure_bind, largest_eq (suffixBits_lt f), pure_bind,
    Nat.and_two_pow_sub_one_eq_mod, Format.suffixOf]

lemma rangeLength_eq (f : Format) (start stop : CellId) :
    rangeLength f start stop = pure (f.rangeLength start stop) := by
  rw [rangeLength, readPosition_eq, pure_bind, readPosition_eq, pure_bind, Format.rangeLength]

lemma prefixBlock_eq (f : Format) (id : CellId) :
    prefixBlock f id = pure (f.blockId (f.prefixOf id)) := by
  have hnumber := Format.toNat_blockId (f.prefixOf_le id)
  have hlt := (f.blockId (f.prefixOf id)).toNat_lt
  rw [prefixBlock, readPrefix_eq, pure_bind, sum_eq (by omega), pure_bind, ← hnumber,
    UInt32.ofNat_toNat]

lemma maxValue_eq (f : Format) : maxValue f = pure f.maxValue := by
  rw [maxValue, Format.maxValue]
  split
  · next hzero => simp [hzero]
  · split
    · next hfour => rw [if_neg (Nat.not_lt.2 hfour)]
    · next hthree =>
      rw [product_eq (by omega), pure_bind, largest_eq (by omega), if_pos (by omega)]
      rw [Nat.pow_mul 2 8 f.valueBytes]

/-! ## Checking ranges -/

/-- Checks a range that comes after another one ending at `lastStop`, in a batch that follows the
table of `lastPrefix`. -/
def checkRange (f : Format) (lastPrefix : Option UInt32) (lastStop : Option CellId)
    (range : CellRange) : Guarded Unit :=
  let invalid := fun fault => returns (.error (.invalidRange range fault))
  if range.stop ≤ range.start then invalid .empty
  else do
    let boundary ← isBoundary f range.stop
    if ¬ f.IsCell range.start ∨ ¬ boundary then invalid (.offLevel f.level)
    else if lastStop.any (range.start < ·) then invalid .unsorted
    else do
      let tablePrefix ← readPrefix f range.start
      if lastPrefix.any (tablePrefix ≤ ·) then invalid (.tableWritten tablePrefix)
      else do
        let length ← rangeLength f range.start range.stop
        let suffix ← maskSuffix f range.start
        let behind ← sum 64 suffix length
        let size ← tableSize f
        if size < behind then invalid (.pastTable tablePrefix)
        else do
          let most ← longest f
          if most < length then invalid (.tooLong length most)
          else if f.valueBytes = 0 then pure ()
          else match range.value with
            | none => returns (.error (.invalidArgument (.rangeWithoutValue range)))
            | some value => do
              let most ← maxValue f
              if most < value.toNat then
                returns (.error (.invalidArgument (.rangeValue range value.toNat most)))
              else pure ()

/-- Suffix and length of any two ids together fit a word. -/
lemma suffixOf_add_rangeLength_lt (f : Format) (start stop : CellId) :
    f.suffixOf start + f.rangeLength start stop < 2 ^ 64 := by
  have hword := positionCount_le f
  have hstop := f.position_lt stop
  have hsuffix := Nat.mod_le (f.position start) (2 ^ f.suffixBits)
  have hstart := f.position_lt start
  rw [Format.suffixOf, Format.rangeLength]
  omega

/-- No range makes the checks leave their words. -/
lemma checkRange_eq (f : Format) (lastPrefix : Option UInt32) (lastStop : Option CellId)
    (range : CellRange) :
    checkRange f lastPrefix lastStop range =
      returns (RangeBuilder.checkRange f lastPrefix lastStop range) := by
  rw [checkRange, RangeBuilder.checkRange]
  refine ite_returns_eq fun _ => ?_
  rw [isBoundary_eq, pure_bind]
  simp only [decide_eq_true_eq]
  refine ite_returns_eq fun _ => ite_returns_eq fun _ => ?_
  rw [readPrefix_eq, pure_bind]
  refine ite_returns_eq fun _ => ?_
  rw [rangeLength_eq, pure_bind, maskSuffix_eq, pure_bind,
    sum_eq (suffixOf_add_rangeLength_lt f _ _), pure_bind, tableSize_eq, pure_bind,
    f.maxSuffix_add_one]
  refine ite_returns_eq fun _ => ?_
  rw [longest_eq, pure_bind]
  refine ite_returns_eq fun _ => ?_
  by_cases hzero : f.valueBytes = 0
  · rw [if_pos hzero, if_pos hzero, returns_ok]
  · rw [if_neg hzero, if_neg hzero]
    cases range.value with
    | none => rfl
    | some value =>
      simp only [maxValue_eq, pure_bind]
      exact ite_returns_eq fun _ => rfl

/-! ## Writing numbers -/

/-- The largest number of some bytes, where more than eight bytes count as eight. -/
def largestOf (width : Nat) : Guarded Nat :=
  if width = 0 then pure 0
  else if 8 ≤ width then pure (2 ^ 64 - 1)
  else do
    let bits ← product 64 8 width
    largest bits

/-- Appends a number, whose bytes are the last ones of a word. -/
def append (bytes : Bytes) (width n : Nat) : Guarded Bytes :=
  if 8 < width then returns (.error (.invalidArgument (.widthTooLarge width)))
  else do
    let most ← largestOf width
    if most < n then returns (.error (.invalidArgument (.doesNotFit n width)))
    else do
      let _ ← difference 8 width
      pure (bytes ++ BigEndian.encode width n)

lemma largestOf_eq (width : Nat) : largestOf width = pure (Bytes.limit width) := by
  rw [largestOf, Bytes.limit]
  split
  · next hzero =>
    rw [hzero]
    rfl
  · split
    · next height =>
      rw [Nat.min_eq_right height]
      rfl
    · next hlt =>
      rw [Nat.min_eq_left (by omega), product_eq (by omega), pure_bind, largest_eq (by omega),
        Nat.pow_mul]

lemma append_eq (bytes : Bytes) (width n : Nat) :
    append bytes width n = returns (bytes.append width n) := by
  rw [append, Bytes.append]
  refine ite_returns_eq fun hwidth => ?_
  rw [largestOf_eq, pure_bind]
  refine ite_returns_eq fun _ => ?_
  rw [difference_eq (Nat.not_lt.1 hwidth), pure_bind, returns_ok]

/-! ## Suffix tables -/

/-- Writes the record of a range behind others. -/
def addRecord (f : Format) (bytes : Bytes) (range : CellRange) : Guarded Bytes := do
  let start ← maskSuffix f range.start
  let length ← rangeLength f range.start range.stop
  let most ← longest f
  if length = 0 ∨ most < length then
    returns (.error (.invalidRange range (.recordLength length most)))
  else do
    let bits ← difference f.params.recordBits.toNat f.suffixBits
    let upper ← shiftLeft 64 start bits
    append bytes f.recordBytes (upper ||| length)

/-- Writes the shared data of a table. -/
def writeShared (f : Format) (tablePrefix : UInt32) (values : List UInt32) : Guarded Bytes :=
  let front := BigEndian.encode 4 tablePrefix.toNat
  if f.valueBytes = 0 ∨ values = [] then pure front
  else do
    let most ← maxValue f
    match values.find? (most < ·.toNat) with
    | some value =>
      returns (.error (.invalidArgument (.sharedValue value.toNat f.valueBytes most)))
    | none =>
      let stored := SharedData.storedValues values
      stored.foldlM (fun bytes value => append bytes f.valueBytes value.toNat)
        (front ++ BigEndian.encode 4 stored.length)

/-- Writes the table of the ranges of a prefix. -/
def writeTable (f : Format) (tablePrefix : UInt32) (ranges : List CellRange) :
    Guarded EncodedTable := do
  let data ← ranges.foldlM (addRecord f) []
  let shared ← writeShared f tablePrefix (EncodedTable.valuesOf ranges)
  pure { shared, data }

/-- The record of a range has a length that the format can say. -/
lemma fits_of_recordOf {r : Record} (h : EncodedTable.recordOf f range = .ok r) : r.Fits f := by
  rw [EncodedTable.recordOf] at h
  obtain ⟨hlength, hr⟩ := Sequence.ite_error_eq_ok.1 h
  rw [not_or, Nat.not_lt] at hlength
  rw [← Except.ok.inj hr]
  exact ⟨f.suffixOf_lt _, hlength.2⟩

/-- A packed record fits its bytes, and so a word. -/
lemma pack_lt_word {r : Record} (h : r.Fits f) : r.pack f < 2 ^ 64 :=
  Nat.lt_of_lt_of_le (Record.pack_lt h) (Nat.pow_le_pow_right (by decide) f.recordBytes_le)

/-- The length of a record lies below its suffix. -/
lemma or_eq_pack {r : Record} (h : r.Fits f) :
    r.start * 2 ^ f.lengthBits ||| r.length = r.pack f := by
  have hpos := Nat.two_pow_pos f.lengthBits
  have hlength := h.2
  rw [Format.maxLength] at hlength
  have hor := Nat.two_pow_add_eq_or_of_lt (show r.length < 2 ^ f.lengthBits by omega) r.start
  rw [Nat.mul_comm, ← hor, Nat.mul_comm, Record.pack]

/-- Every record that a format can say is packed in a word and fits its bytes. -/
lemma addRecord_eq (f : Format) (bytes : Bytes) (range : CellRange) :
    addRecord f bytes range =
      returns ((EncodedTable.recordOf f range).map fun r => bytes ++ r.encode f) := by
  have hbits : f.suffixBits < f.params.recordBits.toNat := f.valid.recordBits_gt
  rw [addRecord, maskSuffix_eq, pure_bind, rangeLength_eq, pure_bind, longest_eq, pure_bind]
  split
  · next hbad =>
    rw [EncodedTable.recordOf, if_pos hbad]
    rfl
  · next hgood =>
    have hrecord : EncodedTable.recordOf f range = .ok (Record.ofRange f range) := by
      rw [EncodedTable.recordOf, if_neg hgood]
      rfl
    have hfits := fits_of_recordOf hrecord
    have hpacked := pack_lt_word hfits
    have hupper :
        shiftLeft 64 (f.suffixOf range.start) (f.params.recordBits.toNat - f.suffixBits) =
          pure (f.suffixOf range.start * 2 ^ f.lengthBits) :=
      shiftLeft_eq (lengthBits_lt f) (Nat.lt_of_le_of_lt (Nat.le_add_right _ _) hpacked)
    have hpack :
        f.suffixOf range.start * 2 ^ f.lengthBits ||| f.rangeLength range.start range.stop =
          (Record.ofRange f range).pack f := or_eq_pack hfits
    rw [difference_eq (Nat.le_of_lt hbits), pure_bind, hupper, pure_bind, hpack, append_eq,
      Record.append_encode bytes hfits, hrecord]
    rfl

/-- The records of a table are written one behind the other. -/
lemma foldlM_addRecord_eq (f : Format) (bytes : Bytes) (ranges : List CellRange) :
    ranges.foldlM (addRecord f) bytes = returns ((ranges.mapM (EncodedTable.recordOf f)).map
      fun records => bytes ++ records.flatMap (Record.encode f)) := by
  induction ranges generalizing bytes with
  | nil => exact congrArg (fun b => returns (.ok b)) (List.append_nil bytes).symm
  | cons range ranges ih =>
    rw [List.foldlM_cons, addRecord_eq, List.mapM_cons]
    cases hrecord : EncodedTable.recordOf f range with
    | error e => rfl
    | ok r =>
      show ranges.foldlM (addRecord f) (bytes ++ r.encode f) = _
      rw [ih]
      cases ranges.mapM (EncodedTable.recordOf f) with
      | error e => rfl
      | ok records =>
        exact congrArg (fun b => returns (.ok b)) (List.append_assoc ..)

/-- Values that the format can store are written one behind the other. -/
lemma foldlM_append_eq {values : List UInt32} (bytes : Bytes)
    (h : ∀ value ∈ values, value.toNat ≤ f.maxValue) :
    values.foldlM (fun bytes value => append bytes f.valueBytes value.toNat) bytes =
      pure (bytes ++ values.flatMap fun value => BigEndian.encode f.valueBytes value.toNat) := by
  induction values generalizing bytes with
  | nil => exact congrArg pure (List.append_nil bytes).symm
  | cons value values ih =>
    rw [List.foldlM_cons, append_eq, SharedData.append_value bytes (h value List.mem_cons_self),
      returns_ok, pure_bind, ih _ fun v hv => h v (List.mem_cons_of_mem _ hv), List.flatMap_cons,
      List.append_assoc]

lemma writeShared_eq (f : Format) (tablePrefix : UInt32) (values : List UInt32) :
    writeShared f tablePrefix values = returns (SharedData.encode f tablePrefix values) := by
  rw [writeShared, SharedData.encode]
  refine ite_returns_eq fun _ => ?_
  rw [maxValue_eq, pure_bind]
  cases hfind : values.find? (f.maxValue < ·.toNat) with
  | some value => rfl
  | none =>
    have hstored : ∀ value ∈ SharedData.storedValues values, value.toNat ≤ f.maxValue := by
      intro value hvalue
      have hmem := SharedData.mem_of_mem_storedValues hvalue
      simpa using List.find?_eq_none.1 hfind value hmem
    show List.foldlM _ _ _ = _
    rw [foldlM_append_eq _ hstored, List.append_assoc]
    rfl

/-- No ranges make a table leave its words. -/
lemma writeTable_eq (f : Format) (tablePrefix : UInt32) (ranges : List CellRange) :
    writeTable f tablePrefix ranges = returns (EncodedTable.ofRanges f tablePrefix ranges) := by
  rw [writeTable, EncodedTable.ofRanges, foldlM_addRecord_eq, writeShared_eq]
  cases ranges.mapM (EncodedTable.recordOf f) with
  | error e => rfl
  | ok records =>
    cases SharedData.encode f tablePrefix (EncodedTable.valuesOf ranges) <;> rfl

end Guarded

open Guarded

/-- **Building never leaves its words.**  For every format, the following goes in guarded steps and
has the result or the error of the plain computation:

* merging any cells, and each turn of the loop that cuts a span ends behind where it has begun;
* checking any range after any others;
* writing the table of any ranges, whose records fit their bytes, of which there are one to eight;
* the number of the block for the prefix of any id, and the number of cells between any two. -/
theorem Format.building_safe (f : Format) :
    (∀ cells, Guarded.mergeCells f cells = returns (CellIndex.mergeCells f cells)) ∧
      (∀ start stop, start < stop →
        start < Span.cut f start stop ∧ Span.cut f start stop ≤ stop) ∧
      (∀ lastPrefix lastStop range, checkRange f lastPrefix lastStop range =
        returns (RangeBuilder.checkRange f lastPrefix lastStop range)) ∧
      (∀ tablePrefix ranges, writeTable f tablePrefix ranges =
        returns (EncodedTable.ofRanges f tablePrefix ranges)) ∧
      (∀ range r, EncodedTable.recordOf f range = .ok r → r.pack f < 256 ^ f.recordBytes) ∧
      (1 ≤ f.recordBytes ∧ f.recordBytes ≤ 8) ∧
      (∀ id, prefixBlock f id = pure (f.blockId (f.prefixOf id))) ∧
      ∀ start stop, Guarded.rangeLength f start stop = pure (f.rangeLength start stop) := by
  refine ⟨Guarded.mergeCells_eq f, ?_, checkRange_eq f, writeTable_eq f, ?_, ?_, prefixBlock_eq f,
    Guarded.rangeLength_eq f⟩
  · intro start stop hlt
    exact ⟨Span.lt_cut hlt, Span.cut_le f start stop⟩
  · intro range r hr
    exact Record.pack_lt (fits_of_recordOf hr)
  · exact ⟨f.recordBytes_pos, f.recordBytes_le⟩

/-- A format without room to spare: leaves with all 64 bits of an id, suffixes of 60 bits, and
numbers of blocks up to the last word. -/
def tightFormat : Format where
  params :=
    { level := 30, prefixBits := 3, suffixBits := 60, blockOffset := 4294967288, recordBits := 64
      allowedList := false }
  valid := Params.fault?_eq_none_iff.1 (by decide)

/-- The last leaf of the last face. -/
def lastLeaf : CellRange where
  start := tightFormat.cellAt (6 * 4 ^ 30 - 1)
  stop := tightFormat.cellAt (6 * 4 ^ 30)

/-- The last leaf is merged, checked and packed, its record has all bits of a word, and the greatest
id leads to the last number of a block. -/
theorem Format.building_safe_last_leaf :
    Guarded.mergeCells tightFormat [⟨lastLeaf.start, none⟩] = pure [lastLeaf] ∧
      (6 * 4 ^ 30 - 1 < Span.cut tightFormat (6 * 4 ^ 30 - 1) (6 * 4 ^ 30) ∧
        Span.cut tightFormat (6 * 4 ^ 30 - 1) (6 * 4 ^ 30) ≤ 6 * 4 ^ 30) ∧
      checkRange tightFormat (some 4) (some lastLeaf.start) lastLeaf = pure () ∧
      (Record.pack tightFormat ⟨4 ^ 30 - 1, 1⟩ = 2 ^ 64 - 15 ∧
        Record.pack tightFormat ⟨4 ^ 30 - 1, 1⟩ < 256 ^ 8) ∧
      prefixBlock tightFormat (CellId.ofNat (2 ^ 64 - 1)) = pure 4294967295 := by
  obtain ⟨hmerge, hcut, hcheck, -, hpack, -, hblock, -⟩ := building_safe tightFormat
  have hfit : CellsFit tightFormat [⟨lastLeaf.start, none⟩] := by
    unfold CellsFit
    decide +kernel
  have hmerged : CellIndex.mergeCells tightFormat [⟨lastLeaf.start, none⟩] = .ok [lastLeaf] := by
    rw [CellIndex.mergeCells_eq hfit, List.map_singleton, List.mergeSort_singleton]
    decide +kernel
  refine ⟨?_, hcut _ _ (by decide), ?_, ⟨by decide +kernel, ?_⟩, ?_⟩
  · rw [hmerge, hmerged, returns_ok]
  · rw [hcheck, show RangeBuilder.checkRange tightFormat (some 4) (some lastLeaf.start) lastLeaf =
      .ok () by decide +kernel, returns_ok]
  · exact hpack lastLeaf _ (by decide +kernel)
  · rw [hblock, show tightFormat.blockId (tightFormat.prefixOf (CellId.ofNat (2 ^ 64 - 1))) =
      4294967295 by decide +kernel]

end CellIndex
