import CellIndex.Proofs.Format.Storable
import CellIndex.Proofs.Sequence
import Mathlib.Data.Set.Card
import Mathlib.Order.Interval.Finset.Nat

/-!
# Prefix and suffix as keys

A prefix and a suffix that fit their widths are the two digits of a position, and every position is
made of two such digits.  So the cells with keys are the ids that have marker and zeros where the
level has them, the keys of any id are those of its ancestor at the level
(`cell?_prefixOf_suffixOf`), and the ids of the level are ordered as their keys are, the prefix
first (`lt_iff_keys`).  Between two of them there are as many as their positions are apart
(`rangeLength_eq_ncard`).  **`keys_faithful`** puts this together.
-/

namespace CellIndex.Format

open Sequence

variable {f : Format} {id a b : CellId} {p : UInt32} {s : Nat}

/-! ## Keys that fit -/

lemma maxPrefix_add_one (f : Format) : f.maxPrefix + 1 = 2 ^ f.prefixBits := by
  have := Nat.two_pow_pos f.prefixBits
  rw [maxPrefix]
  omega

/-- Keys that fit their widths make a position. -/
lemma keys_lt (hp : p.toNat ≤ f.maxPrefix) (hs : s ≤ f.maxSuffix) :
    p.toNat * 2 ^ f.suffixBits + s < f.positionCount := by
  have hupper := f.maxPrefix_add_one
  have hlower := f.maxSuffix_add_one
  have hmul : (p.toNat + 1) * 2 ^ f.suffixBits ≤ 2 ^ f.prefixBits * 2 ^ f.suffixBits :=
    Nat.mul_le_mul_right _ (by omega)
  rw [Nat.succ_mul] at hmul
  rw [positionCount, dataBits, Nat.pow_add]
  omega

/-- The cell of two keys has its keys. -/
lemma keys_cellAt (hp : p.toNat ≤ f.maxPrefix) (hs : s ≤ f.maxSuffix) :
    f.prefixOf (f.cellAt (p.toNat * 2 ^ f.suffixBits + s)) = p ∧
      f.suffixOf (f.cellAt (p.toNat * 2 ^ f.suffixBits + s)) = s := by
  have hpos := position_cellAt (keys_lt hp hs)
  have hlt : s < 2 ^ f.suffixBits := by
    have := f.maxSuffix_add_one
    omega
  refine ⟨UInt32.toNat_inj.1 ?_, ?_⟩
  · rw [toNat_prefixOf, hpos, Nat.mul_comm, Nat.mul_add_div (Nat.two_pow_pos _),
      Nat.div_eq_of_lt hlt, Nat.add_zero]
  · rw [suffixOf, hpos, Nat.mul_add_mod_self_right, Nat.mod_eq_of_lt hlt]

lemma cell?_eq_ok_iff : f.cell? p s = .ok id ↔ p.toNat ≤ f.maxPrefix ∧ s ≤ f.maxSuffix ∧
    f.cellAt (p.toNat * 2 ^ f.suffixBits + s) = id := by
  simp only [cell?, ite_error_eq_ok, Nat.not_lt, Except.ok.injEq]

/-! ## The keys of an id -/

/-- Ancestors at the level of the file are found by the position, whether or not the id is a
cell. -/
lemma ancestor_eq_cellOf (f : Format) (id : CellId) : id.ancestor f.level = f.cellOf id := by
  apply CellId.toNat_inj.1
  rw [CellId.toNat_ancestor, cellOf, toNat_cellAt (f.position_lt id), position,
    f.tailBits_eq_levelZeros]

/-- The keys of an id are those of its ancestor at the level of the file. -/
lemma cell?_prefixOf_suffixOf (f : Format) (id : CellId) :
    f.cell? (f.prefixOf id) (f.suffixOf id) = .ok (id.ancestor f.level) := by
  have hs := f.suffixOf_lt id
  have hmax := f.maxSuffix_add_one
  refine cell?_eq_ok_iff.2 ⟨f.prefixOf_le id, by omega, ?_⟩
  rw [← f.position_eq, ancestor_eq_cellOf, cellOf]

/-- The ids that are their own ancestor are those with marker and zeros in place. -/
lemma isBoundary_iff : f.IsBoundary id ↔ id.ancestor f.level = id := by
  rw [ancestor_eq_cellOf]
  constructor
  · intro h
    exact h.cellAt_position
  · intro h
    rw [← h]
    exact f.isBoundary_cellOf id

/-- The cells of the level are the ids with marker and zeros in place on one of the six faces. -/
lemma isCell_iff : f.IsCell id ↔ f.IsBoundary id ∧ id.face < CellId.faceCount := by
  constructor
  · intro h
    exact ⟨h.isBoundary, h.1.face_lt⟩
  · rintro ⟨hb, hface⟩
    rw [← isBoundary_iff.1 hb]
    exact ⟨CellId.valid_ancestor hface _, CellId.level_ancestor id f.level_le⟩

/-! ## Order and distance -/

/-- Ids of the level are ordered by their prefixes, and those of one prefix by their suffixes. -/
lemma lt_iff_keys (ha : f.IsBoundary a) (hb : f.IsBoundary b) : a < b ↔
    f.prefixOf a < f.prefixOf b ∨ f.prefixOf a = f.prefixOf b ∧ f.suffixOf a < f.suffixOf b := by
  have hsa := f.suffixOf_lt a
  have hsb := f.suffixOf_lt b
  rw [ha.lt_iff hb, f.position_eq a, f.position_eq b, UInt32.lt_iff_toNat_lt, ← UInt32.toNat_inj]
  -- a step of the prefix is worth more than any suffix
  rcases Nat.lt_trichotomy (f.prefixOf a).toNat (f.prefixOf b).toNat with hlt | heq | hgt
  · have hstep := Nat.mul_le_mul_right (2 ^ f.suffixBits) (Nat.succ_le_of_lt hlt)
    rw [Nat.succ_mul] at hstep
    omega
  · rw [heq]
    omega
  · have hstep := Nat.mul_le_mul_right (2 ^ f.suffixBits) (Nat.succ_le_of_lt hgt)
    rw [Nat.succ_mul] at hstep
    omega

/-- The ids of the level between two of them stand at the positions between theirs. -/
lemma setOf_isBoundary_between (ha : f.IsBoundary a) (hb : f.IsBoundary b) :
    {x | f.IsBoundary x ∧ a ≤ x ∧ x < b} =
      Set.image f.cellAt (Set.Ico (f.position a) (f.position b)) := by
  ext x
  constructor
  · rintro ⟨hx, hle, hlt⟩
    exact ⟨f.position x, ⟨(ha.le_iff hx).1 hle, (hx.lt_iff hb).1 hlt⟩, hx.cellAt_position⟩
  · rintro ⟨q, ⟨hle, hlt⟩, rfl⟩
    have hq : q < f.positionCount := Nat.lt_trans hlt (f.position_lt b)
    have hx := isBoundary_cellAt hq
    refine ⟨hx, (ha.le_iff hx).2 ?_, (hx.lt_iff hb).2 ?_⟩
    · rwa [position_cellAt hq]
    · rwa [position_cellAt hq]

/-- The length of a range is the number of ids of the level in it. -/
lemma rangeLength_eq_ncard (ha : f.IsBoundary a) (hb : f.IsBoundary b) :
    f.rangeLength a b = {x | f.IsBoundary x ∧ a ≤ x ∧ x < b}.ncard := by
  have hinj : Set.InjOn f.cellAt (Set.Ico (f.position a) (f.position b)) := by
    intro q hq q' hq' heq
    have hpos := congrArg f.position heq
    rwa [position_cellAt (Nat.lt_trans hq.2 (f.position_lt b)),
      position_cellAt (Nat.lt_trans hq'.2 (f.position_lt b))] at hpos
  rw [setOf_isBoundary_between ha hb, hinj.ncard_image, Set.ncard_eq_toFinset_card',
    Set.toFinset_Ico, Nat.card_Ico, rangeLength]

/-- **Prefix and suffix are faithful keys.**

* There is a cell for two keys exactly if both fit their widths, and it has these keys.
* An id has marker and zeros where the level has them exactly if it is the cell of its keys, and it
  is a cell of the level if moreover its face exists.
* The cell of the keys of an id is its ancestor at the level; so it is for every valid cell of the
  level or a finer one.
* Among the ids of the level the order is that of the keys, and the length of a range is the number
  of ids in it. -/
theorem keys_faithful (f : Format) :
    (∀ p s, (∃ id, f.cell? p s = .ok id) ↔ p.toNat ≤ f.maxPrefix ∧ s ≤ f.maxSuffix) ∧
      (∀ p s id, f.cell? p s = .ok id → f.prefixOf id = p ∧ f.suffixOf id = s) ∧
      (∀ id, f.IsBoundary id ↔ f.cell? (f.prefixOf id) (f.suffixOf id) = .ok id) ∧
      (∀ id, f.IsCell id ↔ f.IsBoundary id ∧ id.face < CellId.faceCount) ∧
      (∀ id, f.cell? (f.prefixOf id) (f.suffixOf id) = .ok (id.ancestor f.level)) ∧
      ∀ a b, f.IsBoundary a → f.IsBoundary b →
        (a < b ↔ f.prefixOf a < f.prefixOf b ∨
          f.prefixOf a = f.prefixOf b ∧ f.suffixOf a < f.suffixOf b) ∧
        f.rangeLength a b = {x | f.IsBoundary x ∧ a ≤ x ∧ x < b}.ncard := by
  refine ⟨fun p s => ⟨?_, ?_⟩, fun p s id h => ?_, fun id => ?_, fun id => isCell_iff,
    f.cell?_prefixOf_suffixOf, fun a b ha hb => ⟨lt_iff_keys ha hb, rangeLength_eq_ncard ha hb⟩⟩
  · rintro ⟨id, h⟩
    obtain ⟨hp, hs, -⟩ := cell?_eq_ok_iff.1 h
    exact ⟨hp, hs⟩
  · rintro ⟨hp, hs⟩
    exact ⟨_, cell?_eq_ok_iff.2 ⟨hp, hs, rfl⟩⟩
  · obtain ⟨hp, hs, rfl⟩ := cell?_eq_ok_iff.1 h
    exact keys_cellAt hp hs
  · rw [cell?_prefixOf_suffixOf, Except.ok.injEq]
    exact isBoundary_iff

/-- A format of the finest level, with the widest prefix. -/
def leafFormat : Format where
  params :=
    { level := 30, prefixBits := 31, suffixBits := 32, blockOffset := 1, recordBits := 64
      allowedList := false }
  valid := Params.fault?_eq_none_iff.1 (by decide)

/-- The last leaf of the last face has the greatest suffix of its prefix.  The bound behind it is no
cell, begins with the next prefix, and is one leaf away. -/
theorem keys_faithful_last_leaf :
    leafFormat.cell? 0x5FFFFFFF 0xFFFFFFFF = .ok (.ofNat 0xBFFFFFFFFFFFFFFF) ∧
      leafFormat.prefixOf (.ofNat 0xBFFFFFFFFFFFFFFF) = 0x5FFFFFFF ∧
      leafFormat.suffixOf (.ofNat 0xBFFFFFFFFFFFFFFF) = 0xFFFFFFFF ∧
      leafFormat.cell? 0x60000000 0 = .ok (.ofNat 0xC000000000000001) ∧
      leafFormat.IsBoundary (.ofNat 0xC000000000000001) ∧
      ¬ leafFormat.IsCell (.ofNat 0xC000000000000001) ∧
      CellId.ofNat 0xBFFFFFFFFFFFFFFF < .ofNat 0xC000000000000001 ∧
      {x | leafFormat.IsBoundary x ∧ CellId.ofNat 0xBFFFFFFFFFFFFFFF ≤ x ∧
        x < .ofNat 0xC000000000000001}.ncard = 1 := by
  obtain ⟨-, hkeys, hboundary, hcell, -, horder⟩ := keys_faithful leafFormat
  have hleaf : leafFormat.cell? 0x5FFFFFFF 0xFFFFFFFF = .ok (.ofNat 0xBFFFFFFFFFFFFFFF) := by
    decide +kernel
  have hbound : leafFormat.cell? 0x60000000 0 = .ok (.ofNat 0xC000000000000001) := by
    decide +kernel
  obtain ⟨hupper, hlower⟩ := hkeys _ _ _ hleaf
  obtain ⟨hupper', hlower'⟩ := hkeys _ _ _ hbound
  have hleaf' := (hboundary _).2 (by rwa [hupper, hlower])
  have hbound' := (hboundary _).2 (by rwa [hupper', hlower'])
  obtain ⟨hlt, hlength⟩ := horder _ _ hleaf' hbound'
  refine ⟨hleaf, hupper, hlower, hbound, hbound', fun h => ?_, hlt.2 (.inl ?_), ?_⟩
  · exact absurd ((hcell _).1 h).2 (by decide +kernel)
  · rw [hupper, hupper']
    decide
  · rw [← hlength]
    decide +kernel

end CellIndex.Format
