import CellIndex.Proofs.SuffixTable.Search

/-!
# Writing a suffix table and reading it back

Whatever ranges are given, writing their table ends in one of two ways that can be told beforehand.
If every range fits the prefix, its record and its value, the table is written, and its entries are
the ranges in the order in which they were given.  If some record cannot say the length of its
range, the first such range is refused, and neither the bounds of the ranges nor their values
matter.  The two ways come together in **`ofRanges_exact`**.
-/

namespace CellIndex

open Sequence EncodedTable

variable {f : Format} {tablePrefix : UInt32} {group : List CellRange} {range : CellRange}

/-- A table says what was written into it. -/
structure ReadsBack (f : Format) (tablePrefix : UInt32) (group : List CellRange)
    (t : SuffixTable f) : Prop where
  /-- It belongs to the prefix. -/
  tablePrefix_eq : t.tablePrefix = tablePrefix
  /-- It has as many entries as there were ranges. -/
  size_eq : t.records.size = group.length
  /-- At every place it has the range that stood there, with its value if the values are kept. -/
  entryAt_eq : ∀ index, t.entryAt index =
    match group[index]? with
    | some range => .ok ⟨index, range.keptIn f group⟩
    | none => .error (.indexOutOfBounds index group.length)

namespace SuffixTable

lemma readsBack_ofGroup (h : ∀ range ∈ group, range.Encodable f tablePrefix) :
    ReadsBack f tablePrefix group (ofGroup f tablePrefix group) where
  tablePrefix_eq := rfl
  size_eq := by rw [ofGroup, List.size_toArray, List.length_map]
  entryAt_eq := entryAt_ofGroup_of_encodable h

end SuffixTable

namespace EncodedTable

/-- Ranges that can be written down are read back from the block with their table. -/
lemma exists_readsBack (hne : group ≠ []) (hcount : group.length < 2 ^ 32)
    (h : ∀ range ∈ group, range.Encodable f tablePrefix) :
    ∃ table, ofRanges f tablePrefix group = .ok table ∧
      ∀ id, ∃ t, SuffixTable.ofBlock f ⟨id, table.shared, table.data⟩ = .ok t ∧
        ReadsBack f tablePrefix group t := by
  obtain ⟨table, htable⟩ := exists_ofRanges h
  have hvalues : (SharedData.keptValues f (valuesOf group)).length < 2 ^ 32 :=
    calc (SharedData.keptValues f (valuesOf group)).length
        ≤ (valuesOf group).length := SharedData.length_keptValues_le f _
      _ ≤ group.length := length_valuesOf_le group
      _ < 2 ^ 32 := hcount
  exact ⟨table, htable, fun id =>
    ⟨_, SuffixTable.ofBlock_of_ofRanges_of_lt hne id htable hvalues,
      SuffixTable.readsBack_ofGroup h⟩⟩

/-- If some record cannot say the length of its range, the first such range is named. -/
lemma ofRanges_eq_error (hr : range ∈ group) (hbad : ¬ range.FitsRecord f) :
    ∃ front bad back, group = front ++ bad :: back ∧
      (∀ range ∈ front, range.FitsRecord f) ∧ ¬ bad.FitsRecord f ∧
      ofRanges f tablePrefix group = .error (.invalidRange bad
        (.recordLength (f.rangeLength bad.start bad.stop) f.maxLength)) := by
  cases hrecords : group.mapM (recordOf f) with
  | ok records =>
    obtain ⟨r, -, hrecord⟩ := exists_of_mapM_eq_ok hrecords hr
    exact absurd (recordOf_eq_ok_iff.1 hrecord).1 hbad
  | error e =>
    obtain ⟨front, bad, back, rfl, hfront, hfail⟩ := exists_first_of_mapM_eq_error hrecords
    obtain ⟨hfits, rfl⟩ := recordOf_eq_error_iff.1 hfail
    refine ⟨front, bad, back, rfl, fun range hrange => ?_, hfits, ?_⟩
    · obtain ⟨r, hrecord⟩ := hfront range hrange
      exact (recordOf_eq_ok_iff.1 hrecord).1
    · rw [ofRanges, hrecords]
      rfl

/-- **Writing ranges as a suffix table is exact.**

* Let there be at least one range, and no more than a word can count.  If they all begin in the
  prefix and at cells of the level, end at cells of the level, have a length that a record can say,
  and no value that is too large, then they are written, and every block with what has been written
  is read back as them: their number, their bounds and their order, and their values if the format
  has values and all of them have one.
* If there is a range, of whatever bounds, whose length is zero or more than a record can say, then
  nothing is written, and the first such range is named with its length and the largest length. -/
theorem ofRanges_exact (f : Format) (tablePrefix : UInt32) (group : List CellRange) :
    (group ≠ [] → group.length < 2 ^ 32 → (∀ range ∈ group, range.Encodable f tablePrefix) →
      ∃ table, ofRanges f tablePrefix group = .ok table ∧
        ∀ id, ∃ t, SuffixTable.ofBlock f ⟨id, table.shared, table.data⟩ = .ok t ∧
          ReadsBack f tablePrefix group t) ∧
      ((∃ range ∈ group, ¬ range.FitsRecord f) →
        ∃ front bad back, group = front ++ bad :: back ∧
          (∀ range ∈ front, range.FitsRecord f) ∧ ¬ bad.FitsRecord f ∧
          ofRanges f tablePrefix group = .error (.invalidRange bad
            (.recordLength (f.rangeLength bad.start bad.stop) f.maxLength))) := by
  refine ⟨fun hne hcount h => exists_readsBack hne hcount h, ?_⟩
  rintro ⟨range, hr, hbad⟩
  exact ofRanges_eq_error hr hbad

open SuffixTable (digitFormat)

/-- Two ranges of the last face that are not in order.  The first ends where the face does. -/
def lastFaceRanges : List CellRange :=
  [⟨digitFormat.cellAt 93, digitFormat.cellAt 96, some 7⟩,
    ⟨digitFormat.cellAt 80, digitFormat.cellAt 83, some 9⟩]

/-- A range of sixteen cells, which is one too many for a digit. -/
def wholeFace : CellRange := ⟨digitFormat.cellAt 80, digitFormat.cellAt 96, none⟩

/-- The ranges of the last face come back with their values, and the whole face is refused behind
them. -/
theorem ofRanges_exact_lastFace :
    (∃ table t, ofRanges digitFormat 5 lastFaceRanges = .ok table ∧
      SuffixTable.ofBlock digitFormat ⟨6, table.shared, table.data⟩ = .ok t ∧
      t.records.size = 2 ∧
      t.entryAt 0 = .ok ⟨0, ⟨digitFormat.cellAt 93, digitFormat.cellAt 96, some 7⟩⟩ ∧
      t.entryAt 1 = .ok ⟨1, ⟨digitFormat.cellAt 80, digitFormat.cellAt 83, some 9⟩⟩) ∧
      ofRanges digitFormat 5 (lastFaceRanges ++ [wholeFace]) =
        .error (.invalidRange wholeFace (.recordLength 16 15)) := by
  have hkept : KeepsValues digitFormat lastFaceRanges := by decide +kernel
  have hfits : ∀ range ∈ lastFaceRanges, range.FitsRecord digitFormat := by decide +kernel
  have hlength : digitFormat.rangeLength wholeFace.start wholeFace.stop = 16 := by decide +kernel
  obtain ⟨hwritten, -⟩ := ofRanges_exact digitFormat 5 lastFaceRanges
  obtain ⟨-, hrefused⟩ := ofRanges_exact digitFormat 5 (lastFaceRanges ++ [wholeFace])
  constructor
  · obtain ⟨table, htable, hread⟩ :=
      hwritten (List.cons_ne_nil _ _) (by decide) (by decide +kernel)
    obtain ⟨t, ht, hback⟩ := hread 6
    have hentry := hback.entryAt_eq
    simp only [CellRange.keptIn, if_pos hkept] at hentry
    exact ⟨table, t, htable, ht, hback.size_eq, hentry 0, hentry 1⟩
  · obtain ⟨front, bad, back, hsplit, -, hbad, herror⟩ :=
      hrefused ⟨wholeFace, List.mem_append_right _ List.mem_cons_self, by decide +kernel⟩
    have hmem : bad ∈ lastFaceRanges ++ [wholeFace] :=
      hsplit ▸ List.mem_append_right _ List.mem_cons_self
    obtain rfl : bad = wholeFace := by
      rcases List.mem_append.1 hmem with hlast | hwhole
      · exact absurd (hfits bad hlast) hbad
      · exact List.mem_singleton.1 hwhole
    rw [herror, hlength]
    rfl

end EncodedTable

end CellIndex
