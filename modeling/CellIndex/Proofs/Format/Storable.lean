import CellIndex.Proofs.Format.Position

/-!
# Ranges that fit a suffix table

A range that a format can store begins at a cell of the level, ends no later than its prefix does,
and is no longer than a record can say.  Then prefix, suffix and length say where it lies
(`Storable.position_stop`), and it holds only ids of its own prefix (`Storable.contains_iff`).
-/

namespace CellIndex

variable {f : Format} {range : CellRange} {id : CellId}

namespace Format

/-- The cell of the level that an id belongs to. -/
def cellOf (f : Format) (id : CellId) : CellId := f.cellAt (f.position id)

lemma isBoundary_cellOf (f : Format) (id : CellId) : f.IsBoundary (f.cellOf id) :=
  isBoundary_cellAt (f.position_lt id)

lemma position_cellOf (f : Format) (id : CellId) : f.position (f.cellOf id) = f.position id :=
  position_cellAt (f.position_lt id)

/-- The end of a range is its length behind its start. -/
lemma position_stop {start stop : CellId} (h : f.position start ≤ f.position stop) :
    f.position stop = (f.prefixOf start).toNat * 2 ^ f.suffixBits + f.suffixOf start +
      f.rangeLength start stop := by
  rw [← f.position_eq, rangeLength]
  omega

/-- To a cell of any level belongs a cell of the level. -/
lemma isCell_cellOf (h : id.Valid) : f.IsCell (f.cellOf id) := by
  rw [cellOf, ← ancestor_eq_cellAt h]
  exact isCell_ancestor h

end Format

namespace CellRange

/-- The range as a file of the format gives it back. -/
def stored (f : Format) (range : CellRange) : CellRange :=
  if f.valueBytes = 0 then range.eraseValue else range

/-- The range fits a suffix table of the format. -/
structure Storable (f : Format) (range : CellRange) : Prop where
  /-- The range is not empty. -/
  start_lt_stop : range.start < range.stop
  /-- It begins at a cell of the level. -/
  isCell_start : f.IsCell range.start
  /-- It ends where cells of the level do. -/
  isBoundary_stop : f.IsBoundary range.stop
  /-- It does not reach beyond its prefix. -/
  inTable : f.suffixOf range.start + f.rangeLength range.start range.stop ≤ 2 ^ f.suffixBits
  /-- A record can say its length. -/
  inRecord : f.rangeLength range.start range.stop ≤ f.maxLength
  /-- It has a value that the format can store, if the format stores values. -/
  value : f.valueBytes ≠ 0 → ∃ value, range.value = some value ∧ value.toNat ≤ f.maxValue

namespace Storable

lemma isBoundary_start (h : range.Storable f) : f.IsBoundary range.start :=
  h.isCell_start.isBoundary

lemma position_lt (h : range.Storable f) : f.position range.start < f.position range.stop :=
  (h.isBoundary_start.lt_iff h.isBoundary_stop).1 h.start_lt_stop

lemma length_pos (h : range.Storable f) : 0 < f.rangeLength range.start range.stop :=
  Nat.sub_pos_of_lt h.position_lt

/-- Behind a range come no earlier prefixes. -/
lemma prefixOf_le (h : range.Storable f) (hid : f.IsBoundary id) (hle : range.stop ≤ id) :
    f.prefixOf range.start ≤ f.prefixOf id :=
  Format.prefixOf_mono
    (Nat.le_trans (Nat.le_of_lt h.position_lt) ((h.isBoundary_stop.le_iff hid).1 hle))

lemma position_stop (h : range.Storable f) :
    f.position range.stop = (f.prefixOf range.start).toNat * 2 ^ f.suffixBits +
      f.suffixOf range.start + f.rangeLength range.start range.stop :=
  Format.position_stop (Nat.le_of_lt h.position_lt)

/-- Among the ids of its prefix, a range holds those whose suffix lies in its record. -/
lemma contains_iff (h : range.Storable f) :
    range.Contains (f.cellOf id) ↔ f.prefixOf range.start = f.prefixOf id ∧
      f.suffixOf range.start ≤ f.suffixOf id ∧
      f.suffixOf id < f.suffixOf range.start + f.rangeLength range.start range.stop := by
  have hstop := h.position_stop
  have htable := h.inTable
  have hid := f.position_eq id
  have hsuffix := f.suffixOf_lt id
  rw [Format.contains_iff h.isBoundary_start h.isBoundary_stop (f.isBoundary_cellOf id),
    f.position_cellOf, f.position_eq range.start]
  constructor
  · rintro ⟨hle, hlt⟩
    have hq : (f.prefixOf range.start).toNat = (f.prefixOf id).toNat := by
      -- neither prefix can come first, since both remainders are below the width of a prefix
      have h1 : (f.prefixOf range.start).toNat * 2 ^ f.suffixBits <
          ((f.prefixOf id).toNat + 1) * 2 ^ f.suffixBits := by
        rw [Nat.succ_mul]
        omega
      have h2 : (f.prefixOf id).toNat * 2 ^ f.suffixBits <
          ((f.prefixOf range.start).toNat + 1) * 2 ^ f.suffixBits := by
        rw [Nat.succ_mul]
        omega
      have := Nat.lt_of_mul_lt_mul_right h1
      have := Nat.lt_of_mul_lt_mul_right h2
      omega
    rw [hq] at hle hstop
    exact ⟨UInt32.toNat_inj.1 hq, by omega, by omega⟩
  · rintro ⟨hp, hle, hlt⟩
    rw [hp] at hstop ⊢
    omega

end Storable

lemma stored_value (f : Format) (range : CellRange) :
    (range.stored f).value = if f.valueBytes = 0 then none else range.value := by
  rw [stored]
  split <;> rfl

end CellRange

/-- The ranges that begin with a prefix. -/
def rangesOfPrefix (f : Format) (ranges : List CellRange) (p : UInt32) : List CellRange :=
  ranges.filter (f.prefixOf ·.start = p)

lemma mem_rangesOfPrefix {ranges : List CellRange} {p : UInt32} :
    range ∈ rangesOfPrefix f ranges p ↔ range ∈ ranges ∧ f.prefixOf range.start = p := by
  rw [rangesOfPrefix, List.mem_filter, decide_eq_true_eq]

end CellIndex
