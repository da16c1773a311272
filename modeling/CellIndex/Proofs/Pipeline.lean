import CellIndex.Proofs.Merge.Region
import CellIndex.Proofs.RangeFile.Session

/-!
# From a list of cells to a look-up

The cells of a list are merged, the ranges are written in one batch, and the file is read again.  A
cell is then found exactly if it or a cell above it is in the list, with the value that the list
gives there (**`find_merged`**).
-/

namespace CellIndex

open RangeWriter (create Accepts exists_file_of_session exists_sample_session sampleFormat
  sampleRange)
open CellIndex.Span (keptValue)

variable {f : Format} {cells : List CellEntry} {ranges : List CellRange} {folder folder₁ folder₂
  folder₃ : Folder} {target : Path} {w w' : RangeWriter} {timestamp : Int64} {q : CellId}

/-- A cell of the list covers a cell exactly if it covers the cell above at the level of the
file. -/
lemma covers_cellOf_iff (hcells : CellsFit f cells) (hq : q.Valid) (hl : f.level ≤ q.level)
    {entry : CellEntry} (he : entry ∈ cells) :
    entry.cell.Covers (f.cellOf q) ↔ q.ancestor entry.cell.level = entry.cell := by
  have hle := (hcells entry he).2
  rw [Format.cellOf, ← Format.ancestor_eq_cellAt hq, CellId.covers_ancestor_iff hle hl]
  exact and_iff_right (Nat.le_trans hle hl)

/-- A merged range has no value that the file would not keep. -/
lemma value_stored_of_mergeCells (h : mergeCells f cells = .ok ranges) {range : CellRange}
    (hr : range ∈ ranges) : (range.stored f).value = range.value := by
  obtain ⟨pieces, hm, rfl⟩ := merged_of_mergeCells h
  obtain ⟨s, hs, rfl⟩ := List.mem_map.1 hr
  have hne := (hm.fits s hs).nonempty
  -- the value of a piece is the kept value of some cell of the list
  obtain ⟨t, ht, -, hv⟩ := (hm.covered s.start s.value).1 ⟨s, hs, ⟨Nat.le_refl _, hne⟩, rfl⟩
  obtain ⟨entry, -, rfl⟩ := List.mem_map.1 ht
  have hkept : s.value = keptValue f entry.value := hv.symm
  rw [CellRange.stored_value]
  split
  · next hbytes =>
    change none = s.value
    rw [hkept, keptValue, if_neg (by omega)]
  · rfl

section Lookup

variable {r : RangeFile} (hfile : r.IsFileOf ranges)
  (hmerge : mergeCells r.format cells = .ok ranges)
include hfile hmerge

/-- A cell of the list above the asked one leads to a range with its value. -/
lemma find_of_ancestor_mem (hq : q.Valid) (hl : r.format.level ≤ q.level) {entry : CellEntry}
    (he : entry ∈ cells) (hcover : q.ancestor entry.cell.level = entry.cell) :
    ∃ range, r.find q = .ok (some range) ∧ range.value = keptValue r.format entry.value := by
  have hcells := cellsFit_of_mergeCells hmerge
  obtain ⟨pieces, hmerged, hpieces⟩ := merged_of_mergeCells hmerge
  obtain ⟨range, hrange, hc, hv⟩ := (hmerged.exists_range_iff hcells (Format.isCell_cellOf hq)).2
    ⟨entry, he, (covers_cellOf_iff hcells hq hl he).2 hcover, rfl⟩
  rw [← hpieces] at hrange
  refine ⟨range.stored r.format, ?_, ?_⟩
  · rw [hfile.find_eq, find?_contains_of_mem hfile.pairwise hrange hc]
    rfl
  · rw [value_stored_of_mergeCells hmerge hrange, hv]

/-- Without such a cell no range holds the asked one. -/
lemma find_of_ancestor_notMem (hq : q.Valid) (hl : r.format.level ≤ q.level)
    (hnone : ∀ entry ∈ cells, q.ancestor entry.cell.level ≠ entry.cell) :
    r.find q = .ok none := by
  have hcells := cellsFit_of_mergeCells hmerge
  obtain ⟨pieces, hmerged, hpieces⟩ := merged_of_mergeCells hmerge
  have hscan : ranges.find? (·.Contains (r.format.cellOf q)) = none := by
    refine List.find?_eq_none.2 fun range hrange hc => ?_
    rw [hpieces] at hrange
    obtain ⟨entry, he, hcover, -⟩ := (hmerged.exists_range_iff hcells (Format.isCell_cellOf hq)).1
      ⟨range, hrange, of_decide_eq_true hc, rfl⟩
    exact hnone entry he ((covers_cellOf_iff hcells hq hl he).1 hcover)
  rw [hfile.find_eq, hscan]
  rfl

end Lookup

/-- **A look-up says what the list says.**  If the cells of a list are merged and the ranges are
written, a cell of the level of the file or of a finer one is found exactly if the list has it or a
cell above it; it then has the value of that cell, as far as the format keeps values. -/
theorem find_merged (hmerge : mergeCells f cells = .ok ranges)
    (hcreate : create folder target f = .ok (w, folder₁))
    (hwrite : w.write folder₁ ranges = (.ok (), w', folder₂))
    (hclose : w'.close folder₂ timestamp = (.ok (), folder₃)) :
    ∃ bytes r, folder₃.read target = .ok bytes ∧ RangeFile.ofBytes bytes = .ok r ∧
      r.format = f ∧
      ∀ q : CellId, q.Valid → f.level ≤ q.level →
        ((∃ range, r.find q = .ok (some range)) ↔
          ∃ entry ∈ cells, q.ancestor entry.cell.level = entry.cell) ∧
        (∀ range, r.find q = .ok (some range) →
          ∀ entry ∈ cells, q.ancestor entry.cell.level = entry.cell →
            range.value = keptValue f entry.value) ∧
        ((∀ entry ∈ cells, q.ancestor entry.cell.level ≠ entry.cell) → r.find q = .ok none) := by
  obtain ⟨bytes, r, hread, hr, rfl, hfile⟩ :=
    exists_file_of_session hcreate (.cons hwrite (.nil _ _)) hclose
  rw [List.flatten_singleton] at hfile
  refine ⟨bytes, r, hread, hr, rfl, fun q hq hl => ⟨⟨?_, ?_⟩, ?_, ?_⟩⟩
  · rintro ⟨range, hfind⟩
    by_contra hnone
    rw [find_of_ancestor_notMem hfile hmerge hq hl
      fun entry he hcover => hnone ⟨entry, he, hcover⟩] at hfind
    exact absurd hfind (by simp)
  · rintro ⟨entry, he, hcover⟩
    obtain ⟨range, hfind, -⟩ := find_of_ancestor_mem hfile hmerge hq hl he hcover
    exact ⟨range, hfind⟩
  · intro range hfind entry he hcover
    obtain ⟨range', hfind', hv⟩ := find_of_ancestor_mem hfile hmerge hq hl he hcover
    obtain rfl : range' = range := by simpa [hfind'] using hfind
    exact hv
  · exact find_of_ancestor_notMem hfile hmerge hq hl

/-- A child of a face and the face itself are merged and written.  A cell below the child is found,
and a cell of another face is not. -/
theorem find_merged_face :
    ∃ w folder₁ w' folder₂ folder₃,
      create .empty ⟨["cells"]⟩ sampleFormat = .ok (w, folder₁) ∧
        w.write folder₁ [sampleRange 0 2 7, sampleRange 2 4 7] = (.ok (), w', folder₂) ∧
        w'.close folder₂ 0 = (.ok (), folder₃) ∧
        ∃ bytes r, folder₃.read ⟨["cells"]⟩ = .ok bytes ∧ RangeFile.ofBytes bytes = .ok r ∧
          (∃ range, r.find (.ofNat 0x0500000000000000) = .ok (some range) ∧
            range.value = some 7) ∧
          r.find (.ofNat 0x2400000000000000) = .ok none := by
  have hmerge : mergeCells sampleFormat
      [⟨.ofNat 0x0400000000000000, some 7⟩, ⟨.ofNat 0x1000000000000000, some 7⟩] =
        .ok [sampleRange 0 2 7, sampleRange 2 4 7] := by
    rw [mergeCells_eq (by unfold CellsFit; decide +kernel), List.mergeSort_of_pairwise
      (by decide +kernel)]
    decide +kernel
  obtain ⟨w, folder₁, w', folder₂, folder₃, hcreate, hwrites, hclose⟩ :=
    @exists_sample_session [[sampleRange 0 2 7, sampleRange 2 4 7]] (by decide +kernel)
  cases hwrites with
  | cons hwrite hrest =>
    cases hrest
    obtain ⟨bytes, r, hread, hr, -, hfind⟩ := find_merged hmerge hcreate hwrite hclose
    obtain ⟨hsome, hvalue, -⟩ := hfind (.ofNat 0x0500000000000000) (by decide +kernel)
      (by decide +kernel)
    obtain ⟨-, -, hnone⟩ := hfind (.ofNat 0x2400000000000000) (by decide +kernel)
      (by decide +kernel)
    obtain ⟨range, hrange⟩ := hsome.2 ⟨_, List.mem_cons_self, by decide +kernel⟩
    have hrangeValue := hvalue range hrange _ List.mem_cons_self (by decide +kernel)
    refine ⟨w, folder₁, _, _, folder₃, hcreate, hwrite, hclose, bytes, r, hread, hr,
      ⟨range, hrange, hrangeValue⟩, ?_⟩
    exact hnone (by decide +kernel)

end CellIndex
