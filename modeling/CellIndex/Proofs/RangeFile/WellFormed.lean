import CellIndex.Proofs.RangeFile.Accepting
import Mathlib.Data.Option.Basic

/-!
# Well-formed ranges

Which ranges a writer takes depends only on the ranges that it has taken before: each must be
admissible behind them (`Admissible`), and have a value that can be stored.  A writer takes a batch
exactly if all its ranges are so (`WellFormed`), and otherwise the first that is not tells the error
(**`write_wellFormed`**).
-/

namespace CellIndex

open Sequence

variable {f : Format} {written front batch : List CellRange} {range : CellRange} {e : Error}
  {groups : List PrefixGroup}

/-- A range can come behind the ranges `written`, which are in the file, and the ranges `front`,
which come in the same batch. -/
structure Admissible (f : Format) (written front : List CellRange) (range : CellRange) : Prop where
  placed : range.Placed f
  sorted : ∀ previous ∈ (written ++ front).getLast?, previous.stop ≤ range.start
  fresh : ∀ last ∈ written.getLast?, f.prefixOf last.start < f.prefixOf range.start

/-- Each range of a batch is admissible behind those before it, and has a value to store. -/
def WellFormed (f : Format) (written batch : List CellRange) : Prop :=
  ∀ front range back, batch = front ++ range :: back →
    Admissible f written front range ∧ range.HasValue f

/-- The error tells the fault of the first range of a batch that is not admissible or has no value
to store.  It is about the value only if the range is admissible. -/
def TellsFirstFault (f : Format) (written batch : List CellRange) (e : Error) : Prop :=
  ∃ front range back, batch = front ++ range :: back ∧ WellFormed f written front ∧
    (Admissible f written front range ∧ ¬ range.HasValue f ∧
        (∃ fault, e = .invalidArgument fault) ∨
      ¬ Admissible f written front range ∧ ∃ fault, e = .invalidRange range fault)

/-- What is written down for a batch can be: its records and values have their widths, and the
suffix tables of its groups can be encoded. -/
structure Writable (f : Format) (batch : List CellRange) : Prop where
  record : ∀ range ∈ batch, ∀ bytes,
    Bytes.append bytes f.recordBytes ((Record.ofRange f range).pack f) =
      .ok (bytes ++ (Record.ofRange f range).encode f)
  value : f.valueBytes ≠ 0 → ∀ range ∈ batch, ∃ value, range.value = some value ∧ ∀ bytes,
    Bytes.append bytes f.valueBytes value.toNat =
      .ok (bytes ++ BigEndian.encode f.valueBytes value.toNat)
  table : ∀ group ∈ RangeBuilder.groups f batch, ∃ table,
    EncodedTable.ofRanges f (PrefixGroup.ofRanges f group).tablePrefix group = .ok table ∧
      SharedData.encode f (PrefixGroup.ofRanges f group).tablePrefix
        (EncodedTable.valuesOf group) = .ok table.shared

/-- The prefix of the last range. -/
def prefixBehind (f : Format) (written : List CellRange) : Option UInt32 :=
  written.getLast?.map (f.prefixOf ·.start)

/-- The end of the last range. -/
def stopBehind (written : List CellRange) : Option CellId := written.getLast?.map CellRange.stop

/-- The last group of a division has the prefix of the last range. -/
lemma Division.prefixBehind_eq (h : Division f groups) :
    prefixBehind f (rangesIn groups) = groups.getLast?.map PrefixGroup.tablePrefix := by
  rcases List.eq_nil_or_concat groups with rfl | ⟨front, last, rfl⟩
  · rfl
  · rw [List.concat_eq_append] at h ⊢
    have hgroup := h.isGroup last (by simp)
    have hranges : rangesIn [last] = last.ranges := by simp [rangesIn]
    rw [prefixBehind, rangesIn_append, hranges, List.getLast?_append, List.getLast?_concat,
      List.getLast?_eq_some_getLast hgroup.ne_nil]
    exact congrArg some (hgroup.prefixOf_eq _ (List.getLast_mem hgroup.ne_nil))

namespace RangeBuilder

variable {b : RangeBuilder}

lemma Holds.lastPrefix_eq_prefixBehind (h : Holds f b groups) :
    b.lastPrefix = prefixBehind f (rangesIn groups) :=
  h.lastPrefix_eq.trans h.division.prefixBehind_eq.symm

lemma stopAfter_stopBehind (written front : List CellRange) :
    stopAfter (stopBehind written) front = stopBehind (written ++ front) := by
  rw [stopAfter, stopBehind, stopBehind, List.getLast?_append, Option.map_or]

/-- A range is admissible if it lies in the place that the checks look at. -/
lemma admissible_iff : Admissible f written front range ↔
    InPlace f (prefixBehind f written) (stopAfter (stopBehind written) front) range := by
  rw [InPlace, Follows, stopAfter_stopBehind, prefixBehind, stopBehind, Option.forall_mem_map,
    Option.forall_mem_map]
  exact ⟨fun h => ⟨h.placed, h.sorted, h.fresh⟩, fun h => ⟨h.1, h.2.1, h.2.2⟩⟩

/-- The checks of a batch pass exactly if the batch is well formed. -/
lemma checkBatch_eq_ok_iff_wellFormed :
    checkBatch f (prefixBehind f written) (stopBehind written) batch = .ok () ↔
      WellFormed f written batch := by
  rw [checkBatch_eq_ok_iff_forall]
  simp only [checkRange_eq_ok_iff_inPlace, ← admissible_iff, WellFormed]

lemma tellsFirstFault_of_checkBatch
    (h : checkBatch f (prefixBehind f written) (stopBehind written) batch = .error e) :
    TellsFirstFault f written batch e := by
  obtain ⟨front, range, back, hbatch, hfront, hrange⟩ := exists_of_checkBatch_eq_error h
  refine ⟨front, range, back, hbatch, checkBatch_eq_ok_iff_wellFormed.1 hfront, ?_⟩
  rw [admissible_iff]
  by_cases hplace : InPlace f (prefixBehind f written) (stopAfter (stopBehind written) front) range
  · refine .inl ⟨hplace, fun hvalue => ?_, checkRange_of_inPlace hplace hrange⟩
    have hok := checkRange_eq_ok_iff_inPlace.2 ⟨hplace, hvalue⟩
    rw [hok] at hrange
    cases hrange
  · obtain ⟨fault, hfault⟩ := checkRange_of_not_inPlace hplace
    rw [hfault] at hrange
    exact .inr ⟨hplace, fault, (Except.error.inj hrange).symm⟩

/-! ## Behind the checks -/

lemma GoodBatch.writable {lastPrefix : Option UInt32} {lastStop : Option CellId}
    (h : GoodBatch f lastPrefix lastStop batch) : Writable f batch where
  record range hr bytes := Record.append_encode bytes (Record.fits_ofRange (h.storable range hr))
  value hv range hr := by
    obtain ⟨value, hvalue, hle⟩ := (h.storable range hr).value hv
    exact ⟨value, hvalue, fun bytes => SharedData.append_value bytes hle⟩
  table group hgroup := by
    have hg := isGroup_of_mem_prefixGroups h (List.mem_map_of_mem hgroup)
    rw [PrefixGroup.ranges_ofRanges] at hg
    exact hg.exists_ofRanges

/-- A builder checks a batch behind the ranges that it holds. -/
lemma Holds.checkBatch_eq (h : Holds f b groups) (batch : List CellRange) :
    checkBatch b.format b.lastPrefix b.lastStop batch =
      checkBatch f (prefixBehind f (rangesIn groups)) (stopBehind (rangesIn groups)) batch := by
  rw [h.format_eq, h.lastPrefix_eq_prefixBehind, h.lastStop_eq, stopBehind]

lemma Holds.goodBatch_iff (h : Holds f b groups) :
    GoodBatch f b.lastPrefix b.lastStop batch ↔ WellFormed f (rangesIn groups) batch := by
  rw [← checkBatch_eq_ok_iff_wellFormed, ← h.checkBatch_eq, h.format_eq, checkBatch_eq_ok_iff]

/-- A batch that is not well formed is refused for its first fault. -/
lemma Holds.exists_add_eq_error (h : Holds f b groups)
    (hbad : ¬ WellFormed f (rangesIn groups) batch) :
    ∃ e, b.add batch = .error e ∧ TellsFirstFault f (rangesIn groups) batch e := by
  cases hcheck : checkBatch b.format b.lastPrefix b.lastStop batch with
  | ok u => exact absurd (checkBatch_eq_ok_iff_wellFormed.1 (h.checkBatch_eq batch ▸ hcheck)) hbad
  | error e =>
    refine ⟨e, ?_, tellsFirstFault_of_checkBatch (h.checkBatch_eq batch ▸ hcheck)⟩
    rw [add, hcheck]
    rfl

end RangeBuilder

namespace RangeWriter

variable {folder folder₁ folder₂ : Folder} {target : Path} {w w' : RangeWriter}
  {batches : List (List CellRange)}

lemma Holds.exists_write (h : Holds f target w groups)
    (hgood : WellFormed f (rangesIn groups) batch) (hshared : SharedFits f batch) :
    ∃ w', w.write folder batch = (.ok (), w', folder) := by
  obtain ⟨-, b, hb, hholds⟩ := h
  obtain ⟨b', hadd⟩ := hholds.exists_add (hholds.goodBatch_iff.2 hgood) hshared
  exact ⟨{ w with builder := some b' }, by simp only [write, hb, hadd]⟩

lemma Holds.exists_write_eq_error (h : Holds f target w groups) (folder : Folder)
    (hbad : ¬ WellFormed f (rangesIn groups) batch) :
    ∃ e w' folder', w.write folder batch = (.error e, w', folder') ∧
      TellsFirstFault f (rangesIn groups) batch e := by
  obtain ⟨-, b, hb, hholds⟩ := h
  obtain ⟨e, hadd, hfault⟩ := hholds.exists_add_eq_error hbad
  refine ⟨e, { w with builder := none }, folder.abandon w.target, ?_, hfault⟩
  simp only [write, hb, hadd]

/-- Closing publishes the file: its header block can always be added. -/
lemma Holds.exists_close (h : Holds f target w groups) :
    ∃ b t, w.builder = some b ∧ b.finish = .ok t ∧
      ∀ folder timestamp, w.close folder timestamp = folder.publish target (t.image timestamp) := by
  obtain ⟨htarget, b, hb, hholds⟩ := h
  obtain ⟨t, hfinish⟩ := hholds.exists_finish
  refine ⟨b, t, hb, hfinish, fun folder timestamp => ?_⟩
  simp only [close, hb, hfinish, htarget]

/-- **A writer takes exactly the well-formed batches.**  Behind the batches that it has taken, and
as long as no shared data gets too long:

* a batch is taken exactly if it is well formed;
* a batch that is not well formed is refused for its first fault;
* nothing that is written for a well-formed batch fails to fit;
* closing the writer never fails for its header block, only if the file cannot be published. -/
theorem write_wellFormed (hcreate : create folder target f = .ok (w, folder₁))
    (hwrite : Accepts w folder₁ batches w' folder₂) (batch : List CellRange) :
    (SharedFits f batch → ((∃ w'', w'.write folder₂ batch = (.ok (), w'', folder₂)) ↔
        WellFormed f batches.flatten batch)) ∧
      (¬ WellFormed f batches.flatten batch → ∃ e w'' folder',
        w'.write folder₂ batch = (.error e, w'', folder') ∧
          TellsFirstFault f batches.flatten batch e) ∧
      (WellFormed f batches.flatten batch → Writable f batch) ∧
      ∃ b t, w'.builder = some b ∧ b.finish = .ok t ∧
        ∀ folder timestamp,
          w'.close folder timestamp = folder.publish target (t.image timestamp) := by
  obtain ⟨groups, hw', hranges⟩ := exists_holds_of_accepts (holds_of_create hcreate) hwrite
  rw [List.nil_append] at hw'
  rw [← hranges]
  refine ⟨fun hshared => ⟨?_, fun hgood => hw'.exists_write hgood hshared⟩,
    hw'.exists_write_eq_error folder₂, fun hgood => ?_, hw'.exists_close⟩
  · rintro ⟨w'', hok⟩
    by_contra hbad
    obtain ⟨e, _, _, herror, -⟩ := hw'.exists_write_eq_error folder₂ hbad
    rw [hok] at herror
    cases herror
  · obtain ⟨-, b, -, hholds⟩ := hw'
    exact (hholds.goodBatch_iff.2 hgood).writable

/-- Behind the range of one prefix, the ranges of the next one, and a range of the same one. -/
theorem write_wellFormed_second_batch :
    ∃ w folder₁ w' folder₂,
      create .empty ⟨["cells"]⟩ sampleFormat = .ok (w, folder₁) ∧
        Accepts w folder₁ [[sampleRange 0 1 7]] w' folder₂ ∧
        (∃ w'', w'.write folder₂ [sampleRange 2 3 7, sampleRange 3 4 8] = (.ok (), w'', folder₂)) ∧
        ∃ e w'' folder', w'.write folder₂ [sampleRange 1 2 7] = (.error e, w'', folder') ∧
          TellsFirstFault sampleFormat [sampleRange 0 1 7] [sampleRange 1 2 7] e := by
  obtain ⟨w, folder₁, w', folder₂, -, hcreate, hwrite, -⟩ :=
    @exists_sample_session [[sampleRange 0 1 7]] (by decide +kernel)
  refine ⟨w, folder₁, w', folder₂, hcreate, hwrite, ?_, ?_⟩
  · have htaken := (write_wellFormed hcreate hwrite [sampleRange 2 3 7, sampleRange 3 4 8]).1
    refine (htaken (sharedFits_of_length (by decide))).2 ?_
    exact RangeBuilder.checkBatch_eq_ok_iff_wellFormed.1 (by decide +kernel)
  · refine (write_wellFormed hcreate hwrite [sampleRange 1 2 7]).2.1 fun hgood => ?_
    exact absurd (RangeBuilder.checkBatch_eq_ok_iff_wellFormed.2 hgood) (by decide +kernel)

end RangeWriter

end CellIndex
