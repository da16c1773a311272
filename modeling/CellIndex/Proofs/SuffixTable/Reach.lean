import CellIndex.Proofs.SuffixTable.Search

/-!
# How far a found range reaches

A look-up asks whether the suffix of the cell lies in a record.  The range that it gives is built
from the record: its bounds are the cells at the first position of the record and at the first
position behind it.  How far a record reaches is not looked at when a block is read, so it may go on
behind the last position that an id can have.  There the ids begin anew, and the end of such a range
may come at or before the cell, or even at the start of the range.  Up to the last position, and so
for every record on the six faces that keeps to its prefix, the range holds the cell
(**`contains_iff_of_find`**).
-/

namespace CellIndex

open CellId (faceCount)

variable {f : Format} {block : Block} {id : CellId} {r : Record} {e : Entry}

/-- The last prefix belongs to none of the six faces. -/
lemma Format.succ_prefixOf_mul_lt (h : id.face < faceCount) :
    ((f.prefixOf id).toNat + 1) * 2 ^ f.suffixBits < f.positionCount := by
  have hbits := f.bits_eq
  have hlow : 3 ≤ f.prefixBits := f.valid.prefixBits_ge
  have hid : id.toNat < 6 * 2 ^ 61 := (Nat.div_lt_iff_lt_mul (by decide)).1 h
  have hwidth : 2 ^ f.suffixBits * 2 ^ (f.tailBits + 1) ≤ 2 ^ 61 := by
    rw [← Nat.pow_add]
    exact Nat.pow_le_pow_right (by decide) (by omega)
  have hstart : (f.prefixOf id).toNat * 2 ^ f.suffixBits * 2 ^ (f.tailBits + 1) ≤ id.toNat :=
    calc (f.prefixOf id).toNat * 2 ^ f.suffixBits * 2 ^ (f.tailBits + 1)
        ≤ f.position id * 2 ^ (f.tailBits + 1) := by
          refine Nat.mul_le_mul_right _ ?_
          rw [f.position_eq]
          exact Nat.le_add_right _ _
      _ ≤ id.toNat := Nat.div_mul_le_self _ _
  -- otherwise the prefix would begin less than a face before the last position
  by_contra hge
  have hmul := Nat.mul_le_mul_right (2 ^ (f.tailBits + 1)) (Nat.not_lt.1 hge)
  rw [f.positionCount_mul, Nat.succ_mul, Nat.add_mul] at hmul
  omega

namespace SuffixTable

open Record

variable {t : SuffixTable f}

/-- The first position behind a record of the table. -/
def stopAt (t : SuffixTable f) (r : Record) : Nat :=
  t.tablePrefix.toNat * 2 ^ f.suffixBits + r.start + r.length

/-- A record that holds the suffix of an id of its prefix holds the position of the id. -/
lemma position_of_holds (hp : f.prefixOf id = t.tablePrefix) (hholds : r.Holds (f.suffixOf id)) :
    t.tablePrefix.toNat * 2 ^ f.suffixBits + r.start ≤ f.position id ∧
      f.position id < t.stopAt r := by
  obtain ⟨hstart, hstop⟩ := hholds
  rw [f.position_eq, hp, stopAt]
  omega

/-- The range of a record begins at or before the cells that the record holds. -/
lemma start_entry_le (hp : f.prefixOf id = t.tablePrefix) (hholds : r.Holds (f.suffixOf id))
    (index : Nat) : (t.entry index r).range.start ≤ f.cellOf id := by
  have hstart := (position_of_holds hp hholds).1
  have hlt := Nat.lt_of_le_of_lt hstart (f.position_lt id)
  have hboundary : f.IsBoundary (t.entry index r).range.start := Format.isBoundary_cellAt hlt
  have hposition : f.position (t.entry index r).range.start =
      t.tablePrefix.toNat * 2 ^ f.suffixBits + r.start := Format.position_cellAt hlt
  rwa [hboundary.le_iff (f.isBoundary_cellOf id), f.position_cellOf, hposition]

/-- The range of a record holds a cell that the record holds if its end, counted anew behind the
last position, lies behind the cell. -/
lemma contains_entry_iff (hp : f.prefixOf id = t.tablePrefix) (hholds : r.Holds (f.suffixOf id))
    (index : Nat) : (t.entry index r).range.Contains (f.cellOf id) ↔
      f.position id < t.stopAt r % f.positionCount := by
  have hstop : f.cellAt (t.stopAt r % f.positionCount) = (t.entry index r).range.stop :=
    f.cellAt_mod _
  have hboundary : f.IsBoundary (t.entry index r).range.stop :=
    hstop ▸ Format.isBoundary_cellAt (Nat.mod_lt _ f.positionCount_pos)
  have hposition : f.position (t.entry index r).range.stop = t.stopAt r % f.positionCount :=
    f.position_cellAt_mod _
  rw [CellRange.Contains, and_iff_right (start_entry_le hp hholds index),
    (f.isBoundary_cellOf id).lt_iff hboundary, f.position_cellOf, hposition]

/-- A record that keeps to a prefix of the six faces ends before the last position. -/
lemma stopAt_lt (hp : f.prefixOf id = t.tablePrefix) (hface : id.face < faceCount)
    (hkeeps : r.start + r.length ≤ 2 ^ f.suffixBits) : t.stopAt r < f.positionCount := by
  have hlt := Format.succ_prefixOf_mul_lt (f := f) hface
  rw [Nat.succ_mul, hp] at hlt
  rw [stopAt]
  omega

/-- **How far a found range reaches.**  Whatever the bytes of a block are, if they are read as a
suffix table and a look-up in it ends at a record:

* the range begins at or before the cell above the id;
* it holds that cell exactly if the end of the record, counted anew behind the last position, lies
  behind the cell;
* so it holds the cell if the record ends before the last position;
* this is so if the id lies on one of the six faces and the record keeps to its prefix. -/
theorem contains_iff_of_find (h : ofBlock f block = .ok t) (hfind : t.find id = some e) :
    e.range.start ≤ f.cellOf id ∧
      (e.range.Contains (f.cellOf id) ↔
        f.position id < t.stopAt (readAt f block.data e.index) % f.positionCount) ∧
      (t.stopAt (readAt f block.data e.index) < f.positionCount →
        e.range.Contains (f.cellOf id)) ∧
      (id.face < faceCount → (readAt f block.data e.index).start +
        (readAt f block.data e.index).length ≤ 2 ^ f.suffixBits →
        e.range.Contains (f.cellOf id)) := by
  have hp := (find_eq_some_iff.1 hfind).1
  obtain ⟨-, hholds, hentry⟩ := holds_of_find h hfind
  have hle := start_entry_le hp hholds e.index
  have hiff := contains_entry_iff hp hholds e.index
  rw [hentry] at hle hiff
  have hreach : t.stopAt (readAt f block.data e.index) < f.positionCount →
      e.range.Contains (f.cellOf id) := by
    intro hlt
    rw [hiff, Nat.mod_eq_of_lt hlt]
    exact (position_of_holds hp hholds).2
  exact ⟨hle, hiff, hreach, fun hface hkeeps => hreach (stopAt_lt hp hface hkeeps)⟩

/-- A table of one record finds what the record holds. -/
lemma find_of_single (h : ofBlock f block = .ok t)
    (hone : block.data.length / f.recordBytes = 1) (hp : f.prefixOf id = t.tablePrefix)
    (hholds : (readAt f block.data 0).Holds (f.suffixOf id)) :
    t.find id = some (t.entry 0 (readAt f block.data 0)) := by
  have hlast : IsLastBy f block.data (f.suffixOf id) 0 := by
    refine ⟨by omega, hholds.1, fun other ho _ => ?_⟩
    obtain rfl : other = 0 := by omega
    exact Nat.le_refl _
  have hasc : Ascending f block.data := by
    rw [Ascending, List.pairwise_iff_getElem]
    intro i j _ hj hij
    rw [length_decodeAll] at hj
    omega
  obtain ⟨e, hfind⟩ := exists_find_of_isLastBy h hasc hp hlast hholds
  obtain ⟨hlt, -, hentry⟩ := holds_of_find h hfind
  have hindex : e.index = 0 := by omega
  rw [hfind, ← hentry, hindex]

/-- A format whose records have seven bits for the length, though there are only 32 positions. -/
def roomyFormat : Format where
  params :=
    { level := 1, prefixBits := 4, suffixBits := 1, blockOffset := 1, recordBits := 8
      allowedList := false }
  valid := Params.fault?_eq_none_iff.1 (by decide)

/-- A block with the record of the first `length` positions. -/
def blockOfLength (length : UInt8) : Block where
  id := 1
  shared := [0, 0, 0, 0]
  data := [length]

/-- A record of all positions but the last, far beyond its prefix, is found where it begins, and its
range holds the first cell. -/
theorem contains_iff_of_find_roomy : ∃ t e,
    ofBlock roomyFormat (blockOfLength 31) = .ok t ∧
      t.find (roomyFormat.cellAt 0) = some e ∧
      e = ⟨0, ⟨roomyFormat.cellAt 0, roomyFormat.cellAt 31, none⟩⟩ ∧
      e.range.Contains (roomyFormat.cellOf (roomyFormat.cellAt 0)) := by
  obtain ⟨t, ht, hzero, hentry, hstop⟩ :
      ∃ t, ofBlock roomyFormat (blockOfLength 31) = .ok t ∧ t.tablePrefix = 0 ∧
        t.entry 0 (readAt roomyFormat (blockOfLength 31).data 0) =
          ⟨0, ⟨roomyFormat.cellAt 0, roomyFormat.cellAt 31, none⟩⟩ ∧
        t.stopAt (readAt roomyFormat (blockOfLength 31).data 0) < roomyFormat.positionCount :=
    ⟨_, rfl, by decide +kernel, by decide +kernel, by decide +kernel⟩
  have hfind := @find_of_single _ _ (roomyFormat.cellAt 0) _ ht (by decide +kernel)
    (hzero ▸ by decide +kernel) (by decide +kernel)
  obtain ⟨-, -, hreach, -⟩ := contains_iff_of_find ht hfind
  exact ⟨t, _, ht, hfind, hentry, hreach hstop⟩

/-- A record of as many cells as there are positions ends where it begins.  It is found, and its
range is empty. -/
theorem find_not_contains : ∃ t e,
    ofBlock roomyFormat (blockOfLength 32) = .ok t ∧
      t.find (roomyFormat.cellAt 0) = some e ∧
      e = ⟨0, ⟨roomyFormat.cellAt 0, roomyFormat.cellAt 0, none⟩⟩ ∧
      ¬ e.range.Contains (roomyFormat.cellOf (roomyFormat.cellAt 0)) := by
  obtain ⟨t, ht, hzero, hentry⟩ :
      ∃ t, ofBlock roomyFormat (blockOfLength 32) = .ok t ∧ t.tablePrefix = 0 ∧
        t.entry 0 (readAt roomyFormat (blockOfLength 32).data 0) =
          ⟨0, ⟨roomyFormat.cellAt 0, roomyFormat.cellAt 0, none⟩⟩ :=
    ⟨_, rfl, by decide +kernel, by decide +kernel⟩
  have hfind := @find_of_single _ _ (roomyFormat.cellAt 0) _ ht (by decide +kernel)
    (hzero ▸ by decide +kernel) (by decide +kernel)
  refine ⟨t, _, ht, hfind, hentry, ?_⟩
  rw [hentry]
  decide +kernel

end SuffixTable

end CellIndex
