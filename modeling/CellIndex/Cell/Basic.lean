import CellIndex.Power

/-!
# Cell ids

The surface of a sphere is cut into six faces, and every face is a quadtree of thirty levels.  A
cell of level `k` on a face is a 64-bit number: three bits for the face, `2 * k` bits for the path
from the face down to the cell, a marker bit, and zeros.

```text
+------+--------------------------+---+--------------------+
| face |  2 * level path bits     | 1 | 2 * (30 - level) 0 |
+------+--------------------------+---+--------------------+
```

So the number of zeros below the lowest one bit tells the level (`zeros_even` describes the ids
that are cells), and an ancestor arises by moving the marker up.  Paths follow a space filling
curve: cells of one level that are neighbours on the curve have ids one step apart.

All functions are total: they are defined by the same arithmetic, modulo `2 ^ 64`, on numbers that
are no cells.
-/

namespace CellIndex

/-- A 64-bit number that may name a cell. -/
structure CellId where
  /-- The number itself. -/
  bits : UInt64
deriving DecidableEq, Inhabited, Repr

namespace CellId

/-- The number of levels below a face. -/
def maxLevel : Nat := 30

/-- The number of faces. -/
def faceCount : Nat := 6

/-- The number of zero bits below the lowest one bit of `n`, or `width` if the lowest `width` bits
are all zero. -/
def lowZeros : (width n : Nat) → Nat
  | 0, _ => 0
  | width + 1, n => if n % 2 = 1 then 0 else lowZeros width (n / 2) + 1

theorem lowZeros_le (width n : Nat) : lowZeros width n ≤ width := by
  induction width generalizing n with
  | zero => simp [lowZeros]
  | succ width ih =>
    rw [lowZeros]
    have := ih (n / 2)
    split <;> omega

/-- Below the lowest one bit there are zeros. -/
theorem lowZeros_odd_mul {width k : Nat} (m : Nat) (h : k < width) :
    lowZeros width ((2 * m + 1) * 2 ^ k) = k := by
  induction width generalizing k with
  | zero => omega
  | succ width ih =>
    cases k with
    | zero => rw [lowZeros, if_pos (by omega)]
    | succ k =>
      have hd : (2 * m + 1) * 2 ^ (k + 1) = (2 * m + 1) * 2 ^ k * 2 := by
        rw [natPow_succ, Nat.mul_assoc]
      rw [lowZeros, hd, if_neg (by omega), Nat.mul_div_cancel _ (by decide), ih (by omega)]

/-- A number is odd beyond the zeros below its lowest one bit. -/
theorem exists_odd_mul {width n : Nat} (h : lowZeros width n < width) :
    ∃ m, n = (2 * m + 1) * 2 ^ lowZeros width n := by
  induction width generalizing n with
  | zero => omega
  | succ width ih =>
    rw [lowZeros] at h ⊢
    split at h
    · next ho =>
      rw [if_pos ho]
      exact ⟨n / 2, by omega⟩
    · next he =>
      rw [if_neg he]
      obtain ⟨m, hm⟩ := ih (n := n / 2) (by omega)
      refine ⟨m, ?_⟩
      rw [natPow_succ, ← Nat.mul_assoc, ← hm]
      omega

/-- The number of an id. -/
def toNat (id : CellId) : Nat := id.bits.toNat

/-- The id with the lowest 64 bits of `n`. -/
def ofNat (n : Nat) : CellId := ⟨UInt64.ofNat n⟩

@[simp] theorem toNat_ofNat (n : Nat) : (ofNat n).toNat = n % 2 ^ 64 := UInt64.toNat_ofNat'

@[simp] theorem ofNat_toNat (id : CellId) : ofNat id.toNat = id := by
  simp [ofNat, toNat]

theorem toNat_lt (id : CellId) : id.toNat < 2 ^ 64 := id.bits.toNat_lt

theorem toNat_inj {a b : CellId} : a.toNat = b.toNat ↔ a = b := by
  constructor
  · intro h
    rw [← ofNat_toNat a, h, ofNat_toNat]
  · rintro rfl
    rfl

/-- Ids are ordered as numbers. -/
instance : LE CellId := ⟨fun a b => a.toNat ≤ b.toNat⟩

/-- Ids are ordered as numbers. -/
instance : LT CellId := ⟨fun a b => a.toNat < b.toNat⟩

instance (a b : CellId) : Decidable (a ≤ b) := inferInstanceAs (Decidable (a.toNat ≤ b.toNat))

instance (a b : CellId) : Decidable (a < b) := inferInstanceAs (Decidable (a.toNat < b.toNat))

theorem le_def {a b : CellId} : a ≤ b ↔ a.toNat ≤ b.toNat := Iff.rfl

theorem lt_def {a b : CellId} : a < b ↔ a.toNat < b.toNat := Iff.rfl

/-- The number of zero bits below the marker, 64 for the id zero. -/
def zeros (id : CellId) : Nat := lowZeros 64 id.toNat

/-- The marker bit: the lowest one bit, or zero for the id zero. -/
def marker (id : CellId) : CellId := ofNat (2 ^ id.zeros)

/-- The marker bit of the cells of a level.  Levels beyond the last count as the last. -/
def levelMarker (level : Nat) : Nat := 2 ^ (2 * (maxLevel - level))

/-- The number in the three face bits. -/
def face (id : CellId) : Nat := id.toNat / 2 ^ 61

/-- The level of a cell; zero for the id zero. -/
def level (id : CellId) : Nat := maxLevel - id.zeros / 2

/-- Whether the id is a cell: its face exists, and its marker stands at an even place. -/
structure Valid (id : CellId) : Prop where
  /-- The face is one of the six. -/
  face_lt : id.face < faceCount
  /-- There are whole levels below the marker. -/
  zeros_even : id.zeros % 2 = 0
  /-- The marker stands below the face bits. -/
  zeros_le : id.zeros ≤ 2 * maxLevel

instance (id : CellId) : Decidable id.Valid :=
  decidable_of_iff (id.face < faceCount ∧ id.zeros % 2 = 0 ∧ id.zeros ≤ 2 * maxLevel)
    ⟨fun ⟨h, h', h''⟩ => ⟨h, h', h''⟩, fun ⟨h, h', h''⟩ => ⟨h, h', h''⟩⟩

/-- The ancestor of a cell at a level that is not deeper than its own. -/
def ancestor (id : CellId) (level : Nat) : CellId :=
  let marker := levelMarker level
  ofNat (id.toNat / (2 * marker) * (2 * marker) + marker)

/-- The next cell of the same level on the curve.  After the last cell of the last face comes no
cell, but still the number that bounds it from above. -/
def next (id : CellId) : CellId := ofNat (id.toNat + 2 ^ (id.zeros + 1))

/-- The cell of `level` that holds the place `path` of the finest level on a face. -/
def ofFace (face : Nat) (path : UInt64) (level : Nat) : CellId :=
  ancestor ⟨(UInt64.ofNat face <<< 61) ||| (path ||| 1)⟩ level

end CellId

end CellIndex
