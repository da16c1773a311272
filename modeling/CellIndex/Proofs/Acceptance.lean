import CellIndex.Proofs.Merge.Region
import CellIndex.Proofs.RangeFile.WellFormed

/-!
# Merged ranges are taken by a writer

The ranges that cells are merged to are well formed behind nothing: they end inside their prefixes,
records can say their lengths, and they stand in order (`Merged.admissible`).  So a new writer
takes them in one batch, unless a cell lacks a value that the format asks for (**`write_merged`**).
-/

namespace CellIndex

open CellIndex.Span (Covered keptValue ofEntry ofEntry_nonempty toRange)

variable {f : Format} {cells : List CellEntry} {ranges front back : List CellRange}
  {range : CellRange} {pieces : List Span} {s : Span}

/-- Every cell has a value that the format can store, if the format stores values. -/
def CellsHaveValues (f : Format) (cells : List CellEntry) : Prop :=
  f.valueBytes = 0 ∨ ∀ entry ∈ cells, ∃ value, entry.value = some value ∧ value.toNat ≤ f.maxValue

namespace Merged

/-- A piece that fits a record has the range of one. -/
lemma placed_toRange (h : Merged f cells pieces) (hs : s ∈ pieces) : (s.toRange f).Placed f := by
  have hfits := h.fits s hs
  refine ⟨Format.isCell_cellAt (h.start_lt hs), h.isBoundary_stop hs, h.toRange_start_lt_stop hs,
    ?_, ?_⟩
  · rw [Format.toNat_prefixOf, h.position_start hs, h.position_stop hs]
    exact hfits.inPrefix
  · rw [Format.rangeLength, h.position_start hs, h.position_stop hs]
    exact Nat.sub_le_iff_le_add'.2 hfits.short

lemma placed (h : Merged f cells pieces) (hr : range ∈ pieces.map (toRange f)) :
    range.Placed f := by
  obtain ⟨s, hs, rfl⟩ := List.mem_map.1 hr
  exact h.placed_toRange hs

/-- Every range of merged cells is admissible behind those before it. -/
lemma admissible (h : Merged f cells pieces)
    (hranges : pieces.map (toRange f) = front ++ range :: back) :
    Admissible f [] front range where
  placed := h.placed (by rw [hranges]; simp)
  sorted previous hprevious := by
    have hpairwise := h.pairwise_toRange
    rw [hranges] at hpairwise
    rw [List.nil_append] at hprevious
    exact ((List.pairwise_append.1 hpairwise).2.2 previous
      (List.mem_of_mem_getLast? hprevious) range List.mem_cons_self).2
  fresh last hlast := by cases hlast

/-- The values of merged cells are the kept values of the cells. -/
lemma value_iff (h : Merged f cells pieces) {P : Option UInt32 → Prop} :
    (∀ s ∈ pieces, P s.value) ↔ ∀ entry ∈ cells, P (keptValue f entry.value) := by
  constructor
  · intro hall entry he
    -- some piece says what the cell says of its first position
    obtain ⟨s, hs, -, hv⟩ := (h.covered (ofEntry f entry).start (keptValue f entry.value)).2
      ⟨_, List.mem_map_of_mem he, ⟨Nat.le_refl _, ofEntry_nonempty f entry⟩, rfl⟩
    exact hv ▸ hall s hs
  · intro hall s hs
    obtain ⟨t, ht, -, hv⟩ := (h.covered s.start s.value).1
      ⟨s, hs, ⟨Nat.le_refl _, (h.fits s hs).nonempty⟩, rfl⟩
    obtain ⟨entry, he, rfl⟩ := List.mem_map.1 ht
    exact hv ▸ hall entry he

/-- The ranges of merged cells can only be refused for their values. -/
lemma wellFormed_iff (h : Merged f cells pieces) :
    WellFormed f [] (pieces.map (toRange f)) ↔ CellsHaveValues f cells := by
  have hvalues : WellFormed f [] (pieces.map (toRange f)) ↔
      ∀ s ∈ pieces, (s.toRange f).HasValue f := by
    constructor
    · intro hgood s hs
      obtain ⟨front, back, hranges⟩ := List.append_of_mem (List.mem_map_of_mem (f := toRange f) hs)
      exact (hgood front _ back hranges).2
    · intro hall front range back hranges
      have hr : range ∈ pieces.map (toRange f) := by rw [hranges]; simp
      obtain ⟨s, hs, rfl⟩ := List.mem_map.1 hr
      exact ⟨h.admissible hranges, hall s hs⟩
  rw [hvalues, CellsHaveValues]
  simp only [CellRange.HasValue, toRange]
  rw [h.value_iff (P := fun v => 0 < f.valueBytes → ∃ value, v = some value ∧
    value.toNat ≤ f.maxValue)]
  rcases Nat.eq_zero_or_pos f.valueBytes with hv | hv
  · simp [hv]
  · simp [hv, Nat.ne_of_gt hv, keptValue]

end Merged

namespace RangeWriter

variable {folder folder₁ : Folder} {target : Path} {w : RangeWriter}

/-- **A new writer takes the ranges of merged cells.**  They all lie in their places, so the writer
takes them, as long as no shared data gets too long, exactly if the format stores no values or every
cell has one that it can store; otherwise an argument is to blame, never a range. -/
theorem write_merged (hmerge : mergeCells f cells = .ok ranges)
    (hcreate : create folder target f = .ok (w, folder₁)) :
    (SharedFits f ranges → ((∃ w', w.write folder₁ ranges = (.ok (), w', folder₁)) ↔
        CellsHaveValues f cells)) ∧
      (¬ CellsHaveValues f cells → ∃ fault w' folder',
        w.write folder₁ ranges = (.error (.invalidArgument fault), w', folder')) ∧
      ∀ front range back, ranges = front ++ range :: back → Admissible f [] front range := by
  obtain ⟨pieces, hmerged, rfl⟩ := merged_of_mergeCells hmerge
  have hw := holds_of_create hcreate
  have hbad : ¬ CellsHaveValues f cells → ∃ fault w' folder',
      w.write folder₁ (pieces.map (toRange f)) =
        (.error (.invalidArgument fault), w', folder') := by
    intro hvalues
    obtain ⟨e, w', folder', hwrite, front, range, back, hranges, -, hfault⟩ :=
      hw.exists_write_eq_error folder₁ (mt hmerged.wellFormed_iff.1 hvalues)
    rcases hfault with ⟨-, -, fault, rfl⟩ | ⟨hplace, -⟩
    · exact ⟨fault, w', folder', hwrite⟩
    · exact absurd (hmerged.admissible hranges) hplace
  refine ⟨fun hshared => ⟨?_, fun hvalues => ?_⟩, hbad, fun front range back => hmerged.admissible⟩
  · rintro ⟨w', hok⟩
    by_contra hvalues
    obtain ⟨fault, w'', folder', herror⟩ := hbad hvalues
    rw [hok] at herror
    cases herror
  · exact hw.exists_write (hmerged.wellFormed_iff.2 hvalues) hshared

/-- A face whose value fits is taken, and a face without a value is not. -/
theorem write_merged_face :
    ∃ w folder₁, create .empty ⟨["cells"]⟩ sampleFormat = .ok (w, folder₁) ∧
      (∃ w', w.write folder₁ [sampleRange 0 2 7, sampleRange 2 4 7] = (.ok (), w', folder₁)) ∧
      ∃ fault w' folder', w.write folder₁ [⟨sampleFormat.cellAt 0, sampleFormat.cellAt 2, none⟩,
          ⟨sampleFormat.cellAt 2, sampleFormat.cellAt 4, none⟩] =
        (.error (.invalidArgument fault), w', folder') := by
  have hface : ∀ value, value = some 7 ∨ value = none →
      mergeCells sampleFormat [⟨.ofNat 0x1000000000000000, value⟩] =
        .ok [⟨sampleFormat.cellAt 0, sampleFormat.cellAt 2, value⟩,
          ⟨sampleFormat.cellAt 2, sampleFormat.cellAt 4, value⟩] := by
    intro value hvalue
    have hfit : CellsFit sampleFormat [⟨.ofNat 0x1000000000000000, value⟩] := by
      have hcell : (CellId.ofNat 0x1000000000000000).Valid ∧
          (CellId.ofNat 0x1000000000000000).level ≤ sampleFormat.level := by decide +kernel
      simpa [CellsFit] using hcell
    rw [mergeCells_eq hfit, List.map_singleton, List.mergeSort_singleton]
    rcases hvalue with rfl | rfl
    · decide +kernel
    · decide +kernel
  obtain ⟨w, folder₁, -, -, -, hcreate, -, -⟩ :=
    @exists_sample_session [] (by decide +kernel)
  refine ⟨w, folder₁, hcreate, ?_, ?_⟩
  · have htaken := (write_merged (hface (some 7) (.inl rfl)) hcreate).1
    refine (htaken (sharedFits_of_length (by decide))).2 (.inr fun entry he => ?_)
    rw [List.mem_singleton.1 he]
    exact ⟨7, rfl, by decide +kernel⟩
  · refine (write_merged (hface none (.inr rfl)) hcreate).2.1 ?_
    rintro (hnovalues | hall)
    · exact absurd hnovalues (by decide +kernel)
    · obtain ⟨value, hvalue, -⟩ := hall _ List.mem_cons_self
      cases hvalue

end RangeWriter

end CellIndex
