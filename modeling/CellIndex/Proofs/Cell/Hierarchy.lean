import CellIndex.Cell.Basic
import Mathlib.Order.Defs.LinearOrder
import Mathlib.Tactic.Common

/-!
# The hierarchy of cells

The number of a cell is an odd multiple of its marker: the bits above the marker are the path from
the cube down to the cell.  So the ancestor at a level keeps the bits above the marker of that
level, and a cell is an ancestor of another exactly if it agrees with it in these bits
(`covers_iff`).  Going up in two steps is the same as going up in one (`ancestor_ancestor`).
-/

namespace CellIndex.CellId

variable {id c x : CellId} {k l : Nat}

/-- Ids are ordered as their numbers are. -/
instance : LinearOrder CellId where
  le_refl a := Nat.le_refl a.toNat
  le_trans _ _ _ := Nat.le_trans
  lt_iff_le_not_ge _ _ := Nat.lt_iff_le_and_not_ge
  le_antisymm _ _ hab hba := toNat_inj.1 (Nat.le_antisymm hab hba)
  le_total a b := Nat.le_total a.toNat b.toNat
  toDecidableLE := inferInstance
  toDecidableLT := inferInstance

/-- The number of zeros below the marker of a level. -/
def levelZeros (level : Nat) : Nat := 2 * (maxLevel - level)

lemma levelZeros_le (level : Nat) : levelZeros level ≤ 60 := by
  simp only [levelZeros, maxLevel]
  omega

/-! ## Cutting off bits -/

/-- The bits above a place do not see a marker below that place. -/
lemma marked_div {r s : Nat} (h : s ≤ r) (m : Nat) :
    (m * 2 ^ (s + 1) + 2 ^ s) / 2 ^ (r + 1) = m / 2 ^ (r - s) := by
  have hp : 2 ^ (r + 1) = 2 ^ (s + 1) * 2 ^ (r - s) := by
    rw [← Nat.pow_add]
    congr 1
    omega
  have hlt : 2 ^ s < 2 ^ (s + 1) := Nat.pow_lt_pow_right (by decide) (by omega)
  rw [hp, ← Nat.div_div_eq_div_mul, Nat.mul_comm m, Nat.mul_add_div (Nat.two_pow_pos _),
    Nat.div_eq_of_lt hlt, Nat.add_zero]

/-- A marker may take the place of all bits below it. -/
lemma div_marked_div {r s : Nat} (h : s ≤ r) (n : Nat) :
    (n / 2 ^ (s + 1) * 2 ^ (s + 1) + 2 ^ s) / 2 ^ (r + 1) = n / 2 ^ (r + 1) := by
  rw [marked_div h, Nat.div_div_eq_div_mul, ← Nat.pow_add]
  congr 2
  omega

/-- A word stays a word when a marker takes the place of its lowest bits. -/
lemma marked_lt {n s : Nat} (hn : n < 2 ^ 64) (hs : s < 64) :
    n / 2 ^ (s + 1) * 2 ^ (s + 1) + 2 ^ s < 2 ^ 64 := by
  have hp : 2 ^ 64 = 2 ^ (63 - s) * 2 ^ (s + 1) := by
    rw [← Nat.pow_add]
    congr 1
    omega
  have hq : n / 2 ^ (s + 1) < 2 ^ (63 - s) := by
    apply Nat.div_lt_of_lt_mul
    rwa [Nat.mul_comm, ← hp]
  have hlt : 2 ^ s < 2 ^ (s + 1) := Nat.pow_lt_pow_right (by decide) (by omega)
  have hm : (n / 2 ^ (s + 1) + 1) * 2 ^ (s + 1) ≤ 2 ^ (63 - s) * 2 ^ (s + 1) :=
    Nat.mul_le_mul_right _ hq
  rw [Nat.add_mul, Nat.one_mul, ← hp] at hm
  omega

/-! ## The marker of a cell -/

lemma level_le (id : CellId) : id.level ≤ maxLevel := Nat.sub_le _ _

lemma Valid.zeros_lt (h : id.Valid) : id.zeros < 64 := by
  have := h.zeros_le
  simp only [maxLevel] at this
  omega

/-- The level of a cell tells the place of its marker. -/
lemma Valid.zeros_eq (h : id.Valid) : id.zeros = levelZeros id.level := by
  have h1 := h.zeros_le
  have h2 := h.zeros_even
  simp only [levelZeros, level]
  omega

/-- The number of a cell is its path with the marker below. -/
lemma Valid.toNat_eq (h : id.Valid) :
    id.toNat = id.toNat / 2 ^ (id.zeros + 1) * 2 ^ (id.zeros + 1) + 2 ^ id.zeros := by
  obtain ⟨m, hm⟩ := @exists_odd_mul 64 id.toNat h.zeros_lt
  have hz : lowZeros 64 id.toNat = id.zeros := rfl
  rw [hz] at hm
  have hform : id.toNat = m * 2 ^ (id.zeros + 1) + 2 ^ id.zeros := by
    rw [hm, Nat.pow_succ, Nat.add_mul, Nat.one_mul, Nat.mul_comm 2 m, Nat.mul_assoc,
      Nat.mul_comm 2]
  have hd : id.toNat / 2 ^ (id.zeros + 1) = m := by
    rw [hform, marked_div (Nat.le_refl _), Nat.sub_self, Nat.pow_zero, Nat.div_one]
  rw [hd]
  exact hform

/-- The marker is found again below any path. -/
lemma zeros_of_toNat_eq {m s : Nat} (hs : s < 64) (h : id.toNat = m * 2 ^ (s + 1) + 2 ^ s) :
    id.zeros = s := by
  have hodd : id.toNat = (2 * m + 1) * 2 ^ s := by
    rw [h, Nat.pow_succ, Nat.add_mul, Nat.one_mul, Nat.mul_comm 2 m, Nat.mul_assoc, Nat.mul_comm 2]
  rw [zeros, hodd]
  exact lowZeros_odd_mul m hs

/-! ## Ancestors -/

lemma toNat_ancestor (id : CellId) (level : Nat) :
    (id.ancestor level).toNat = id.toNat / 2 ^ (levelZeros level + 1) *
      2 ^ (levelZeros level + 1) + 2 ^ levelZeros level := by
  have hm : levelMarker level = 2 ^ levelZeros level := rfl
  have h2 : 2 * 2 ^ levelZeros level = 2 ^ (levelZeros level + 1) := by
    rw [Nat.pow_succ, Nat.mul_comm]
  have hs := levelZeros_le level
  simp only [ancestor, hm, h2, toNat_ofNat]
  exact Nat.mod_eq_of_lt (marked_lt id.toNat_lt (by omega))

lemma zeros_ancestor (id : CellId) (level : Nat) :
    (id.ancestor level).zeros = levelZeros level := by
  have := levelZeros_le level
  exact zeros_of_toNat_eq (by omega) (toNat_ancestor id level)

lemma level_ancestor (id : CellId) (h : l ≤ maxLevel) : (id.ancestor l).level = l := by
  simp only [level, zeros_ancestor, levelZeros]
  omega

/-- Going up does not leave the face. -/
lemma face_ancestor (id : CellId) (level : Nat) : (id.ancestor level).face = id.face := by
  have h := levelZeros_le level
  simp only [face, toNat_ancestor]
  exact div_marked_div h _

lemma valid_ancestor (h : id.face < faceCount) (level : Nat) : (id.ancestor level).Valid where
  face_lt := by rwa [face_ancestor]
  zeros_even := by rw [zeros_ancestor, levelZeros]; omega
  zeros_le := by
    rw [zeros_ancestor, levelZeros]
    omega

/-- Going up in two steps is going up in one. -/
lemma ancestor_ancestor (id : CellId) (h : k ≤ l) :
    (id.ancestor l).ancestor k = id.ancestor k := by
  have hz : levelZeros l ≤ levelZeros k := by
    simp only [levelZeros]
    omega
  apply toNat_inj.1
  rw [toNat_ancestor, toNat_ancestor id k, toNat_ancestor id l, div_marked_div hz]

/-! ## Covering -/

/-- A cell covers itself and all its descendants. -/
def Covers (c x : CellId) : Prop := c.level ≤ x.level ∧ x.ancestor c.level = c

instance (c x : CellId) : Decidable (c.Covers x) := inferInstanceAs (Decidable (_ ∧ _))

/-- A cell covers another exactly if they agree above the marker of the coarser one. -/
lemma covers_iff (hc : c.Valid) (hl : c.level ≤ x.level) :
    c.Covers x ↔ x.toNat / 2 ^ (c.zeros + 1) = c.toNat / 2 ^ (c.zeros + 1) := by
  constructor
  · rintro ⟨-, h⟩
    have hn := toNat_ancestor x c.level
    rw [h, ← hc.zeros_eq] at hn
    rw [hn, div_marked_div (Nat.le_refl _)]
  · intro h
    refine ⟨hl, toNat_inj.1 ?_⟩
    rw [toNat_ancestor, ← hc.zeros_eq, h]
    exact hc.toNat_eq.symm

/-- Covering passes through the ancestor at a level between. -/
lemma covers_ancestor_iff (hc : c.level ≤ l) (hl : l ≤ x.level) :
    c.Covers (x.ancestor l) ↔ c.Covers x := by
  have hm : l ≤ maxLevel := Nat.le_trans hl x.level_le
  simp only [Covers, level_ancestor x hm, ancestor_ancestor x hc]
  constructor
  · rintro ⟨-, h⟩
    exact ⟨Nat.le_trans hc hl, h⟩
  · rintro ⟨-, h⟩
    exact ⟨hc, h⟩

end CellIndex.CellId
