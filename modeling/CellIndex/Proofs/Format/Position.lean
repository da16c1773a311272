import CellIndex.CellRange
import CellIndex.Format.Layout
import CellIndex.Proofs.Cell.Hierarchy

/-!
# Positions of cells

On the ids that have marker and zeros where the cells of the level have them, the position says
everything: `cellAt` gives the id back (`IsBoundary.cellAt_position`), and ids are ordered as their
positions are.  Prefix and suffix are the two digits of a position (`position_eq`).  The cells of
the level are the ids at the first `cellCount` positions.
-/

namespace CellIndex.Format

open CellId (levelZeros)

variable {f : Format} {id a b : CellId} {p : Nat}

lemma bits_eq (f : Format) : f.prefixBits + f.suffixBits + (f.tailBits + 1) = 64 := by
  have := f.dataBits_le
  simp only [tailBits, dataBits] at *
  omega

lemma prefixBits_le (f : Format) : f.prefixBits ≤ 32 := f.valid.prefixBits_le

lemma tailBits_eq_levelZeros (f : Format) : f.tailBits = levelZeros f.level := f.tailBits_eq

lemma maxSuffix_add_one (f : Format) : f.maxSuffix + 1 = 2 ^ f.suffixBits := by
  have := Nat.two_pow_pos f.suffixBits
  simp only [maxSuffix]
  omega

/-! ## Ids and positions -/

/-- The number of positions that an id can have. -/
def positionCount (f : Format) : Nat := 2 ^ f.dataBits

lemma positionCount_mul (f : Format) : f.positionCount * 2 ^ (f.tailBits + 1) = 2 ^ 64 := by
  rw [positionCount, ← Nat.pow_add, dataBits, bits_eq]

lemma position_lt (f : Format) (id : CellId) : f.position id < f.positionCount := by
  apply Nat.div_lt_of_lt_mul
  rw [Nat.mul_comm, positionCount_mul]
  exact id.toNat_lt

lemma toNat_cellAt (h : p < f.positionCount) :
    (f.cellAt p).toNat = p * 2 ^ (f.tailBits + 1) + 2 ^ f.tailBits := by
  have hlt : 2 ^ f.tailBits < 2 ^ (f.tailBits + 1) := Nat.pow_lt_pow_right (by decide) (by omega)
  have hm : (p + 1) * 2 ^ (f.tailBits + 1) ≤ 2 ^ 64 := by
    rw [← f.positionCount_mul]
    exact Nat.mul_le_mul_right _ h
  rw [Nat.add_mul, Nat.one_mul] at hm
  rw [cellAt, CellId.toNat_ofNat]
  exact Nat.mod_eq_of_lt (by omega)

lemma position_cellAt (h : p < f.positionCount) : f.position (f.cellAt p) = p := by
  rw [position, toNat_cellAt h, CellId.marked_div (Nat.le_refl _), Nat.sub_self, Nat.pow_zero,
    Nat.div_one]

lemma isBoundary_cellAt (h : p < f.positionCount) : f.IsBoundary (f.cellAt p) := by
  have hlt : 2 ^ f.tailBits < 2 ^ (f.tailBits + 1) := Nat.pow_lt_pow_right (by decide) (by omega)
  rw [IsBoundary, toNat_cellAt h, Nat.mul_add_mod_self_right, Nat.mod_eq_of_lt hlt]

/-- Beyond the last position the ids begin anew. -/
lemma cellAt_mod (f : Format) (p : Nat) : f.cellAt (p % f.positionCount) = f.cellAt p := by
  apply CellId.toNat_inj.1
  rw [cellAt, cellAt, CellId.toNat_ofNat, CellId.toNat_ofNat, ← f.positionCount_mul,
    ← Nat.mul_mod_mul_right, Nat.mod_add_mod]

lemma positionCount_pos (f : Format) : 0 < f.positionCount := Nat.two_pow_pos _

lemma position_cellAt_mod (f : Format) (p : Nat) :
    f.position (f.cellAt p) = p % f.positionCount := by
  rw [← cellAt_mod, position_cellAt (Nat.mod_lt _ f.positionCount_pos)]

namespace IsBoundary

lemma toNat_eq (h : f.IsBoundary id) :
    id.toNat = f.position id * 2 ^ (f.tailBits + 1) + 2 ^ f.tailBits := by
  have := Nat.div_add_mod' id.toNat (2 ^ (f.tailBits + 1))
  rw [show id.toNat % 2 ^ (f.tailBits + 1) = 2 ^ f.tailBits from h] at this
  exact this.symm

/-- Marker and zeros are where they are expected, so the position says the whole id. -/
lemma cellAt_position (h : f.IsBoundary id) : f.cellAt (f.position id) = id := by
  apply CellId.toNat_inj.1
  rw [toNat_cellAt (f.position_lt id)]
  exact h.toNat_eq.symm

lemma lt_iff (ha : f.IsBoundary a) (hb : f.IsBoundary b) :
    a < b ↔ f.position a < f.position b := by
  rw [CellId.lt_def, ha.toNat_eq, hb.toNat_eq, Nat.add_lt_add_iff_right,
    Nat.mul_lt_mul_right (Nat.two_pow_pos _)]

lemma le_iff (ha : f.IsBoundary a) (hb : f.IsBoundary b) :
    a ≤ b ↔ f.position a ≤ f.position b := by
  rw [CellId.le_def, ha.toNat_eq, hb.toNat_eq, Nat.add_le_add_iff_right,
    Nat.mul_le_mul_right_iff (Nat.two_pow_pos _)]

end IsBoundary

/-- A range holds the ids of the level whose positions lie between those of its bounds. -/
lemma contains_iff {range : CellRange} (hs : f.IsBoundary range.start)
    (he : f.IsBoundary range.stop) (h : f.IsBoundary id) :
    range.Contains id ↔
      f.position range.start ≤ f.position id ∧ f.position id < f.position range.stop := by
  rw [CellRange.Contains, hs.le_iff h, h.lt_iff he]

/-! ## Prefix and suffix -/

lemma toNat_prefixOf (f : Format) (id : CellId) :
    (f.prefixOf id).toNat = f.position id / 2 ^ f.suffixBits := by
  have hb := f.bits_eq
  have hp := f.prefixBits_le
  have hsum : 64 - f.prefixBits = f.tailBits + 1 + f.suffixBits := by omega
  have hlt : id.toNat / 2 ^ (64 - f.prefixBits) < 2 ^ 32 := by
    apply Nat.div_lt_of_lt_mul
    rw [← Nat.pow_add]
    exact Nat.lt_of_lt_of_le id.toNat_lt (Nat.pow_le_pow_right (by decide) (by omega))
  rw [prefixOf, UInt32.toNat_ofNat', Nat.mod_eq_of_lt hlt, hsum, Nat.pow_add,
    ← Nat.div_div_eq_div_mul, position]

/-- Prefix and suffix are the upper and the lower part of a position. -/
lemma position_eq (f : Format) (id : CellId) :
    f.position id = (f.prefixOf id).toNat * 2 ^ f.suffixBits + f.suffixOf id := by
  rw [toNat_prefixOf, suffixOf, Nat.div_add_mod']

lemma suffixOf_lt (f : Format) (id : CellId) : f.suffixOf id < 2 ^ f.suffixBits :=
  Nat.mod_lt _ (Nat.two_pow_pos _)

lemma prefixOf_le (f : Format) (id : CellId) : (f.prefixOf id).toNat ≤ f.maxPrefix := by
  have h : f.position id / 2 ^ f.suffixBits < 2 ^ f.prefixBits := by
    apply Nat.div_lt_of_lt_mul
    rw [← Nat.pow_add, Nat.add_comm]
    exact f.position_lt id
  rw [toNat_prefixOf, maxPrefix]
  omega

/-- Later positions have later prefixes, or the same one. -/
lemma prefixOf_mono (h : f.position a ≤ f.position b) : f.prefixOf a ≤ f.prefixOf b := by
  rw [UInt32.le_iff_toNat_le, toNat_prefixOf, toNat_prefixOf]
  exact Nat.div_le_div_right h

/-! ## Cells of the level -/

/-- The number of cells of the level. -/
def cellCount (f : Format) : Nat := 6 * 4 ^ f.level

lemma cellCount_lt (f : Format) : f.cellCount < f.positionCount := by
  have h4 : 2 ^ (2 * f.level) = 4 ^ f.level := Nat.pow_mul 2 2 f.level
  have hp : 0 < 4 ^ f.level := Nat.pow_pos (by decide)
  rw [cellCount, positionCount, dataBits_eq, Nat.pow_add, h4]
  omega

/-- A cell of the level has its marker where the format says. -/
lemma IsCell.isBoundary (h : f.IsCell id) : f.IsBoundary id := by
  have hz : id.zeros = f.tailBits := by rw [h.1.zeros_eq, h.2, f.tailBits_eq_levelZeros]
  have hlt : 2 ^ f.tailBits < 2 ^ (f.tailBits + 1) := Nat.pow_lt_pow_right (by decide) (by omega)
  rw [IsBoundary, h.1.toNat_eq, hz, Nat.mul_add_mod_self_right, Nat.mod_eq_of_lt hlt]

/-- Each level above that of the file leaves two more zeros below the marker. -/
lemma zeros_eq_add (h : id.Valid) (hl : id.level ≤ f.level) :
    id.zeros = f.tailBits + 2 * (f.level - id.level) := by
  have ht := f.tailBits_eq
  have hL := f.level_le
  have hz := h.zeros_eq
  simp only [levelZeros, CellId.maxLevel] at hz
  omega

lemma tailBits_le_zeros (h : id.Valid) (hl : id.level ≤ f.level) : f.tailBits ≤ id.zeros := by
  rw [zeros_eq_add h hl]
  exact Nat.le_add_right _ _

/-- The number of descendants at the level of the file. -/
lemma width_eq (h : id.Valid) (hl : id.level ≤ f.level) :
    4 ^ (f.level - id.level) = 2 ^ (id.zeros - f.tailBits) := by
  rw [zeros_eq_add h hl, Nat.add_sub_cancel_left]
  exact (Nat.pow_mul 2 2 _).symm

/-- The ancestor at the level of the file is a cell of that level at the same position. -/
lemma isCell_ancestor (h : id.Valid) : f.IsCell (id.ancestor f.level) :=
  ⟨CellId.valid_ancestor h.face_lt _, CellId.level_ancestor id f.level_le⟩

lemma position_ancestor (f : Format) (id : CellId) :
    f.position (id.ancestor f.level) = f.position id := by
  rw [position, position, CellId.toNat_ancestor, f.tailBits_eq_levelZeros,
    CellId.div_marked_div (Nat.le_refl _)]

/-- The cell above an id is the one at its position. -/
lemma ancestor_eq_cellAt (h : id.Valid) : id.ancestor f.level = f.cellAt (f.position id) := by
  rw [← f.position_ancestor, (isCell_ancestor h).isBoundary.cellAt_position]

end CellIndex.Format
