import CellIndex.Proofs.Merge.Cut
import CellIndex.Proofs.Sequence

/-!
# The region that cells cover

A cell covers the positions of its descendants at the level of the file, which follow each other on
the curve (`contains_ofEntry_iff`).  So a list of cells says a partial map from cells of the level
to values, and merging keeps that map: `merged_of_mergeCells` for the pieces behind the ranges, and
**`mergeCells_correct`** for the ranges themselves, with the exact condition under which merging
succeeds.
-/

namespace CellIndex

open CellId (levelZeros)
open Sequence

variable {f : Format} {p : Nat}

namespace Format

/-- At the positions up to `cellCount` there are cells of the level. -/
lemma isCell_cellAt (h : p < f.cellCount) : f.IsCell (f.cellAt p) := by
  have hp := Nat.lt_trans h f.cellCount_lt
  have ht := f.tailBits_eq
  have hL := f.level_le
  have hz : (f.cellAt p).zeros = f.tailBits :=
    CellId.zeros_of_toNat_eq (by omega) (toNat_cellAt hp)
  have hpow : 2 ^ (60 - f.tailBits) = 4 ^ f.level := by
    rw [show 60 - f.tailBits = 2 * f.level by omega]
    exact Nat.pow_mul 2 2 f.level
  refine ⟨⟨?_, by omega, ?_⟩, ?_⟩
  · rw [CellId.face, toNat_cellAt hp, CellId.marked_div (show f.tailBits ≤ 60 by omega), hpow]
    exact Nat.div_lt_of_lt_mul (by rwa [Nat.mul_comm])
  · simp only [CellId.maxLevel]
    omega
  · simp only [CellId.level, CellId.maxLevel, hz]
    omega

end Format

namespace Span

/-! ## Cells as spans -/

/-- The positions of the descendants of a cell, with the value that the format keeps. -/
def ofEntry (f : Format) (entry : CellEntry) : Span :=
  let path := entry.cell.toNat / 2 ^ (entry.cell.zeros + 1)
  let width := 4 ^ (f.level - entry.cell.level)
  { start := path * width, stop := (path + 1) * width, value := keptValue f entry.value }

variable {entry : CellEntry}

lemma ofCell_of_valid (hv : entry.cell.Valid) (hl : entry.cell.level ≤ f.level) :
    ofCell f entry = .ok (ofEntry f entry) := by
  have hle := Format.tailBits_le_zeros hv hl
  have hnum := hv.toNat_eq
  have hlt := entry.cell.toNat_lt
  have hpow : 2 ^ f.tailBits ≤ 2 ^ entry.cell.zeros := Nat.pow_le_pow_right (by decide) hle
  have hmark : CellId.levelMarker f.level = 2 ^ f.tailBits := by
    rw [f.tailBits_eq_levelZeros]
    rfl
  have hsplit : 2 ^ (entry.cell.zeros + 1) =
      2 ^ (entry.cell.zeros - f.tailBits) * 2 ^ (f.tailBits + 1) := by
    rw [← Nat.pow_add]
    congr 1
    omega
  have hfirst : f.position (CellId.ofNat (entry.cell.toNat - 2 ^ entry.cell.zeros +
      CellId.levelMarker f.level)) = entry.cell.toNat / 2 ^ (entry.cell.zeros + 1) *
        4 ^ (f.level - entry.cell.level) := by
    have hsub : entry.cell.toNat - 2 ^ entry.cell.zeros =
        entry.cell.toNat / 2 ^ (entry.cell.zeros + 1) * 2 ^ (entry.cell.zeros + 1) := by omega
    rw [Format.position, CellId.toNat_ofNat, hmark, hsub, Nat.mod_eq_of_lt (by omega), hsplit,
      ← Nat.mul_assoc, CellId.marked_div (Nat.le_refl _), Nat.sub_self, Nat.pow_zero,
      Nat.div_one, Format.width_eq hv hl]
  simp only [ofCell, not_true_eq_false, hv, if_false, if_neg (Nat.not_lt.2 hl), hfirst]
  rw [ofEntry, Nat.add_mul, Nat.one_mul]

lemma exists_of_ofCell_eq_error {e : Error} (h : ofCell f entry = .error e) :
    (∃ fault, e = .invalidInput fault) ∧ ¬ (entry.cell.Valid ∧ entry.cell.level ≤ f.level) := by
  constructor
  · simp only [ofCell] at h
    split at h
    · exact ⟨_, (Except.error.inj h).symm⟩
    · split at h
      · exact ⟨_, (Except.error.inj h).symm⟩
      · exact absurd h (by simp)
  · rintro ⟨hv, hl⟩
    rw [ofCell_of_valid hv hl] at h
    exact absurd h (by simp)

lemma valid_of_ofCell {s : Span} (h : ofCell f entry = .ok s) :
    entry.cell.Valid ∧ entry.cell.level ≤ f.level := by
  simp only [ofCell, ite_error_eq_ok, not_not, Nat.not_lt] at h
  exact ⟨h.1, h.2.1⟩

lemma ofEntry_nonempty (f : Format) (entry : CellEntry) :
    (ofEntry f entry).start < (ofEntry f entry).stop := by
  have hp : 0 < 4 ^ (f.level - entry.cell.level) := Nat.pow_pos (by decide)
  simp only [ofEntry]
  rw [Nat.add_mul, Nat.one_mul]
  omega

/-- The descendants of a cell at the level of the file are the cells at the positions of its
span. -/
lemma contains_ofEntry_iff {x : CellId} (hv : entry.cell.Valid) (hl : entry.cell.level ≤ f.level)
    (hx : f.IsCell x) : (ofEntry f entry).Contains (f.position x) ↔ entry.cell.Covers x := by
  have hle := Format.tailBits_le_zeros hv hl
  have hw : 0 < 2 ^ (entry.cell.zeros - f.tailBits) := Nat.two_pow_pos _
  have hdiv : x.toNat / 2 ^ (entry.cell.zeros + 1) =
      f.position x / 2 ^ (entry.cell.zeros - f.tailBits) := by
    rw [Format.position, Nat.div_div_eq_div_mul, ← Nat.pow_add]
    congr 2
    omega
  rw [CellId.covers_iff hv (by rw [hx.2]; exact hl), hdiv]
  simp only [Contains, ofEntry, Format.width_eq hv hl]
  rw [← Nat.le_div_iff_mul_le hw, ← Nat.div_lt_iff_lt_mul hw]
  omega

/-- No cell covers positions beyond the last cell of the level. -/
lemma ofEntry_stop_le (hv : entry.cell.Valid) (hl : entry.cell.level ≤ f.level) :
    (ofEntry f entry).stop ≤ f.cellCount := by
  have hle := Format.tailBits_le_zeros hv hl
  have hz := hv.zeros_le
  have ht := f.tailBits_eq
  have hL := f.level_le
  have hface := hv.face_lt
  simp only [CellId.maxLevel, CellId.face, CellId.faceCount] at hz hface
  -- the path of the cell within the cube
  have hpath : entry.cell.toNat / 2 ^ (entry.cell.zeros + 1) < 6 * 2 ^ (60 - entry.cell.zeros) := by
    apply Nat.div_lt_of_lt_mul
    rw [Nat.mul_left_comm, ← Nat.pow_add, show entry.cell.zeros + 1 + (60 - entry.cell.zeros) = 61
      by omega]
    omega
  have hcount : f.cellCount =
      6 * 2 ^ (60 - entry.cell.zeros) * 2 ^ (entry.cell.zeros - f.tailBits) := by
    rw [Format.cellCount, Nat.mul_assoc, ← Nat.pow_add,
      show 60 - entry.cell.zeros + (entry.cell.zeros - f.tailBits) = 2 * f.level by omega]
    exact congrArg (6 * ·) (Nat.pow_mul 2 2 f.level).symm
  rw [hcount]
  simp only [ofEntry, Format.width_eq hv hl]
  exact Nat.mul_le_mul_right _ hpath

/-- Two spans of cells are in conflict exactly if the cells have a common descendant at the level
of the file and other values. -/
lemma conflict_ofEntry_iff {a b : CellEntry} (ha : a.cell.Valid ∧ a.cell.level ≤ f.level)
    (hb : b.cell.Valid ∧ b.cell.level ≤ f.level) :
    Conflict (ofEntry f a) (ofEntry f b) ↔
      (∃ x, f.IsCell x ∧ a.cell.Covers x ∧ b.cell.Covers x) ∧
        keptValue f a.value ≠ keptValue f b.value := by
  refine and_congr_left fun _ => ⟨?_, ?_⟩
  · rintro ⟨p, hpa, hpb⟩
    have hlt : p < f.cellCount := Nat.lt_of_lt_of_le hpa.2 (ofEntry_stop_le ha.1 ha.2)
    have hx := Format.isCell_cellAt hlt
    have hpos := Format.position_cellAt (Nat.lt_trans hlt f.cellCount_lt)
    refine ⟨f.cellAt p, hx, ?_, ?_⟩
    · exact (contains_ofEntry_iff ha.1 ha.2 hx).1 (hpos.symm ▸ hpa)
    · exact (contains_ofEntry_iff hb.1 hb.2 hx).1 (hpos.symm ▸ hpb)
  · rintro ⟨x, hx, hca, hcb⟩
    exact ⟨f.position x, (contains_ofEntry_iff ha.1 ha.2 hx).2 hca,
      (contains_ofEntry_iff hb.1 hb.2 hx).2 hcb⟩

end Span

/-! ## Merging -/

open CellIndex.Span

/-- The cells of a list can be stored at the level of the format. -/
def CellsFit (f : Format) (cells : List CellEntry) : Prop :=
  ∀ entry ∈ cells, entry.cell.Valid ∧ entry.cell.level ≤ f.level

/-- No cell of the level gets two values. -/
def ConflictFree (f : Format) (cells : List CellEntry) : Prop :=
  ∀ a ∈ cells, ∀ b ∈ cells, (∃ x, f.IsCell x ∧ a.cell.Covers x ∧ b.cell.Covers x) →
    keptValue f a.value = keptValue f b.value

/-- The pieces that cells are merged to: they are in order, each fits a record, and together they
say what the cells say. -/
structure Merged (f : Format) (cells : List CellEntry) (pieces : List Span) : Prop where
  pairwise : pieces.Pairwise (·.stop ≤ ·.start)
  fits : ∀ s ∈ pieces, Span.Fits f s
  stop_le : ∀ s ∈ pieces, s.stop ≤ f.cellCount
  covered : ∀ p v, Covered pieces p v ↔ Covered (cells.map (ofEntry f)) p v

variable {cells : List CellEntry} {ranges : List CellRange}

lemma mapM_ofCell (h : CellsFit f cells) : cells.mapM (ofCell f) = .ok (cells.map (ofEntry f)) :=
  mapM_eq_map fun entry he => ofCell_of_valid (h entry he).1 (h entry he).2

lemma ofEntries_nonempty (f : Format) (cells : List CellEntry) :
    ∀ s ∈ cells.map (ofEntry f), s.start < s.stop := by
  intro s hs
  obtain ⟨entry, -, rfl⟩ := List.mem_map.1 hs
  exact ofEntry_nonempty f entry

/-- Merging is joining and cutting, once the cells are known to fit. -/
lemma mergeCells_eq (h : CellsFit f cells) :
    mergeCells f cells =
      (join f ((cells.map (ofEntry f)).mergeSort le)).map (·.flatMap (Span.ranges f)) := by
  rw [mergeCells, mapM_ofCell h]
  rfl

lemma cellsFit_of_mergeCells (h : mergeCells f cells = .ok ranges) : CellsFit f cells := by
  obtain ⟨spans, hspans, -⟩ := bind_eq_ok.1 h
  intro entry he
  obtain ⟨s, -, hs⟩ := exists_of_mapM_eq_ok hspans he
  exact valid_of_ofCell hs

/-- The spans that cells are joined to stand apart from each other and say what the cells say; the
ranges are those of their pieces. -/
lemma exists_joined_of_mergeCells (h : mergeCells f cells = .ok ranges) :
    ∃ joined : List Span, joined.Pairwise Before ∧ (∀ s ∈ joined, s.start < s.stop) ∧
      (∀ p v, Covered joined p v ↔ Covered (cells.map (ofEntry f)) p v) ∧
      ranges = (joined.flatMap (pieces f)).map (toRange f) := by
  rw [mergeCells_eq (cellsFit_of_mergeCells h)] at h
  obtain ⟨joined, hj, rfl⟩ := map_eq_ok.1 h
  obtain ⟨hp, hn, hcov⟩ := joined_of_join (ofEntries_nonempty f cells) hj
  refine ⟨joined, hp, hn, hcov, ?_⟩
  rw [List.map_flatMap]
  exact congrArg (List.flatMap · joined) (funext (ranges_eq_map_toRange f))

lemma merged_of_joined {joined : List Span} (hfit : CellsFit f cells)
    (hp : joined.Pairwise Before)
    (hcov : ∀ p v, Covered joined p v ↔ Covered (cells.map (ofEntry f)) p v) :
    Merged f cells (joined.flatMap (pieces f)) := by
  have hfits : ∀ s ∈ joined.flatMap (pieces f), Span.Fits f s := by
    intro s hs
    obtain ⟨t, -, hst⟩ := List.mem_flatMap.1 hs
    exact fits_of_mem_pieces s hst
  have hcov' : ∀ p v, Covered (joined.flatMap (pieces f)) p v ↔
      Covered (cells.map (ofEntry f)) p v := fun p v => covered_flatMap_pieces.trans (hcov p v)
  refine ⟨pairwise_flatMap_pieces hp, hfits, fun s hs => ?_, hcov'⟩
  have hne := (hfits s hs).nonempty
  -- the last position of the piece belongs to some cell of the list
  obtain ⟨t, ht, hct, -⟩ := (hcov' (s.stop - 1) s.value).1 ⟨s, hs, ⟨by omega, by omega⟩, rfl⟩
  obtain ⟨entry, he, rfl⟩ := List.mem_map.1 ht
  have hle := ofEntry_stop_le (hfit entry he).1 (hfit entry he).2
  have hlt := hct.2
  omega

lemma merged_of_mergeCells (h : mergeCells f cells = .ok ranges) :
    ∃ pieces, Merged f cells pieces ∧ ranges = pieces.map (toRange f) := by
  obtain ⟨joined, hp, -, hcov, hranges⟩ := exists_joined_of_mergeCells h
  exact ⟨_, merged_of_joined (cellsFit_of_mergeCells h) hp hcov, hranges⟩

/-- Merging succeeds exactly if all cells fit and no cell of the level gets two values. -/
lemma mergeCells_isOk_iff :
    (∃ ranges, mergeCells f cells = .ok ranges) ↔ CellsFit f cells ∧ ConflictFree f cells := by
  constructor
  · rintro ⟨ranges, h⟩
    have hfit := cellsFit_of_mergeCells h
    refine ⟨hfit, fun a ha b hb hx => ?_⟩
    by_contra hv
    rw [mergeCells_eq hfit] at h
    obtain ⟨joined, hj, -⟩ := map_eq_ok.1 h
    exact not_conflict_of_join (ofEntries_nonempty f cells) hj (List.mem_map_of_mem ha)
      (List.mem_map_of_mem hb) ((conflict_ofEntry_iff (hfit a ha) (hfit b hb)).2 ⟨hx, hv⟩)
  · rintro ⟨hfit, hfree⟩
    rw [mergeCells_eq hfit]
    cases hj : join f ((cells.map (ofEntry f)).mergeSort le) with
    | ok joined => exact ⟨_, rfl⟩
    | error e =>
      obtain ⟨-, s, hs, t, ht, hconf⟩ := exists_conflict_of_join (ofEntries_nonempty f cells) hj
      obtain ⟨a, ha, rfl⟩ := List.mem_map.1 hs
      obtain ⟨b, hb, rfl⟩ := List.mem_map.1 ht
      obtain ⟨hx, hv⟩ := (conflict_ofEntry_iff (hfit a ha) (hfit b hb)).1 hconf
      exact absurd (hfree a ha b hb hx) hv

lemma invalidInput_of_mergeCells {e : Error} (h : mergeCells f cells = .error e) :
    ∃ fault, e = .invalidInput fault := by
  cases hspans : cells.mapM (ofCell f) with
  | error e' =>
    rw [mergeCells, hspans] at h
    obtain rfl : e' = e := Except.error.inj h
    obtain ⟨entry, -, he⟩ := exists_of_mapM_eq_error hspans
    exact (exists_of_ofCell_eq_error he).1
  | ok spans =>
    have hfit : CellsFit f cells := fun entry he => by
      obtain ⟨s, -, hs⟩ := exists_of_mapM_eq_ok hspans he
      exact valid_of_ofCell hs
    rw [mergeCells_eq hfit] at h
    cases hj : join f ((cells.map (ofEntry f)).mergeSort le) with
    | ok joined => simp [hj, Except.map] at h
    | error e' =>
      obtain rfl : e' = e := by simpa [hj, Except.map] using h
      exact (exists_conflict_of_join (ofEntries_nonempty f cells) hj).1

/-! ## The ranges of pieces -/

namespace Merged

variable {pieces : List Span} {s : Span} {x : CellId} {v : Option UInt32}

lemma start_lt (h : Merged f cells pieces) (hs : s ∈ pieces) : s.start < f.cellCount :=
  Nat.lt_of_lt_of_le (h.fits s hs).nonempty (h.stop_le s hs)

lemma position_start (h : Merged f cells pieces) (hs : s ∈ pieces) :
    f.position (s.toRange f).start = s.start :=
  Format.position_cellAt (Nat.lt_trans (h.start_lt hs) f.cellCount_lt)

lemma position_stop (h : Merged f cells pieces) (hs : s ∈ pieces) :
    f.position (s.toRange f).stop = s.stop :=
  Format.position_cellAt (Nat.lt_of_le_of_lt (h.stop_le s hs) f.cellCount_lt)

lemma isBoundary_start (h : Merged f cells pieces) (hs : s ∈ pieces) :
    f.IsBoundary (s.toRange f).start :=
  Format.isBoundary_cellAt (Nat.lt_trans (h.start_lt hs) f.cellCount_lt)

lemma isBoundary_stop (h : Merged f cells pieces) (hs : s ∈ pieces) :
    f.IsBoundary (s.toRange f).stop :=
  Format.isBoundary_cellAt (Nat.lt_of_le_of_lt (h.stop_le s hs) f.cellCount_lt)

lemma contains_toRange_iff (h : Merged f cells pieces) (hs : s ∈ pieces) (hx : f.IsCell x) :
    (s.toRange f).Contains x ↔ s.Contains (f.position x) := by
  rw [Format.contains_iff (h.isBoundary_start hs) (h.isBoundary_stop hs) hx.isBoundary,
    h.position_start hs, h.position_stop hs]
  rfl

lemma toRange_start_lt_stop (h : Merged f cells pieces) (hs : s ∈ pieces) :
    (s.toRange f).start < (s.toRange f).stop := by
  rw [(h.isBoundary_start hs).lt_iff (h.isBoundary_stop hs), h.position_start hs,
    h.position_stop hs]
  exact (h.fits s hs).nonempty

/-- The ranges are in order and do not overlap. -/
lemma pairwise_toRange (h : Merged f cells pieces) :
    (pieces.map (toRange f)).Pairwise fun a b => a.start < b.start ∧ a.stop ≤ b.start := by
  rw [List.pairwise_map]
  refine h.pairwise.imp_of_mem fun {s t} hs ht hst => ⟨?_, ?_⟩
  · rw [(h.isBoundary_start hs).lt_iff (h.isBoundary_start ht), h.position_start hs,
      h.position_start ht]
    exact Nat.lt_of_lt_of_le (h.fits s hs).nonempty hst
  · rw [(h.isBoundary_stop hs).le_iff (h.isBoundary_start ht), h.position_stop hs,
      h.position_start ht]
    exact hst

/-- The ranges give a cell of the level the value that the cells above it have in the list. -/
lemma exists_range_iff (h : Merged f cells pieces) (hfit : CellsFit f cells) (hx : f.IsCell x) :
    (∃ range ∈ pieces.map (toRange f), range.Contains x ∧ range.value = v) ↔
      ∃ entry ∈ cells, entry.cell.Covers x ∧ keptValue f entry.value = v := by
  have hcov := h.covered (f.position x) v
  simp only [Covered, List.mem_map, exists_exists_and_eq_and] at hcov ⊢
  constructor
  · rintro ⟨s, hs, hc, hv⟩
    obtain ⟨entry, he, hce, hve⟩ := hcov.1 ⟨s, hs, (h.contains_toRange_iff hs hx).1 hc, hv⟩
    exact ⟨entry, he, (contains_ofEntry_iff (hfit entry he).1 (hfit entry he).2 hx).1 hce, hve⟩
  · rintro ⟨entry, he, hc, hv⟩
    obtain ⟨s, hs, hcs, hvs⟩ := hcov.2
      ⟨entry, he, (contains_ofEntry_iff (hfit entry he).1 (hfit entry he).2 hx).2 hc, hv⟩
    exact ⟨s, hs, (h.contains_toRange_iff hs hx).2 hcs, hvs⟩

end Merged

/-- **Merging keeps what cells say.**  Merging succeeds exactly if every cell of the list is a cell
of the level of the file or of a coarser one, and no cell of that level lies below two cells with
different values; otherwise the list is to blame.  The ranges are then in order and disjoint, and
give every cell of the level the values that the cells above it have in the list. -/
theorem mergeCells_correct (f : Format) (cells : List CellEntry) :
    ((∃ ranges, mergeCells f cells = .ok ranges) ↔ CellsFit f cells ∧ ConflictFree f cells) ∧
      (∀ e, mergeCells f cells = .error e → ∃ fault, e = .invalidInput fault) ∧
      ∀ ranges, mergeCells f cells = .ok ranges →
        (∀ range ∈ ranges, range.start < range.stop) ∧
          ranges.Pairwise (fun a b => a.start < b.start ∧ a.stop ≤ b.start) ∧
          ∀ x v, f.IsCell x →
            ((∃ range ∈ ranges, range.Contains x ∧ range.value = v) ↔
              ∃ entry ∈ cells, entry.cell.Covers x ∧ keptValue f entry.value = v) := by
  refine ⟨mergeCells_isOk_iff, fun e => invalidInput_of_mergeCells, fun ranges h => ?_⟩
  obtain ⟨pieces, hm, rfl⟩ := merged_of_mergeCells h
  refine ⟨fun range hr => ?_, hm.pairwise_toRange, fun x v hx => ?_⟩
  · obtain ⟨s, hs, rfl⟩ := List.mem_map.1 hr
    exact hm.toRange_start_lt_stop hs
  · exact hm.exists_range_iff (cellsFit_of_mergeCells h) hx

end CellIndex
