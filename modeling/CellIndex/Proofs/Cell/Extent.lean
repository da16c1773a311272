import CellIndex.Proofs.Cell.Hierarchy
import Mathlib.Algebra.Ring.Parity
import Mathlib.Data.Nat.Bitwise
import Mathlib.Data.Set.Lattice
import Mathlib.Order.Bounds.Basic
import Mathlib.Order.CompletePartialOrder

/-!
# The extent of a cell

The ids of a cell and of everything inside it are those less than a marker away from it
(`CellId.extent`).  They are the ids that agree with the cell above its marker and do not end in
zeros there (`mem_extent_iff`), so the extents of two cells are nested exactly if one cell covers
the other, and disjoint otherwise.  The extent of the next cell follows without a gap, and only
behind the last cell of the last face there is no cell any more.

All this is the work of masks on machine words: the marker is what an id and its negative have in
common (`bits_marker`), and an ancestor is cut out by the negative of its marker (`bits_ancestor`).
**`hierarchy_lawful`** puts the laws together.
-/

namespace CellIndex.CellId

variable {a b c x id : CellId} {k l : Nat}

/-! ## Masks -/

lemma toNat_bits (id : CellId) : id.bits.toNat = id.toNat := rfl

lemma bits_ofNat (n : Nat) : (ofNat n).bits = UInt64.ofNat n := rfl

/-- A power of two below the bound of machine words is a word. -/
lemma two_pow_lt_word {s : Nat} (hs : s < 64) : 2 ^ s < 2 ^ 64 :=
  Nat.pow_lt_pow_right (by decide) hs

/-- The bits from a place on. -/
lemma and_neg_two_pow {n s : Nat} (hn : n < 2 ^ 64) (hs : s < 64) :
    n &&& (2 ^ 64 - 2 ^ s) = n / 2 ^ s * 2 ^ s := by
  have hsplit : 2 ^ 64 - 2 ^ s = 2 ^ s * (2 ^ (64 - s) - 1) := by
    rw [Nat.mul_sub, ← Nat.pow_add, Nat.mul_one, Nat.add_sub_cancel' (Nat.le_of_lt hs)]
  apply Nat.eq_of_testBit_eq
  intro i
  rw [hsplit, Nat.mul_comm (n / 2 ^ s), Nat.testBit_and, Nat.testBit_two_pow_mul,
    Nat.testBit_two_pow_mul, Nat.testBit_two_pow_sub_one, Nat.testBit_div_two_pow]
  by_cases hi : s ≤ i
  · rw [Nat.sub_add_cancel hi]
    by_cases hi64 : i < 64
    · simp [hi, show i - s < 64 - s by omega]
    · have hzero : n.testBit i = false :=
        Nat.testBit_lt_two_pow (Nat.lt_of_lt_of_le hn (Nat.pow_le_pow_right (by decide) (by omega)))
      simp [hzero]
  · simp [hi]

/-- The bits from a place on, with the bit at that place. -/
lemma div_mul_or_two_pow (n s : Nat) :
    n / 2 ^ s * 2 ^ s ||| 2 ^ s = n / 2 ^ (s + 1) * 2 ^ (s + 1) + 2 ^ s := by
  have hlt : 2 ^ s < 2 ^ (s + 1) := Nat.pow_lt_pow_right (by decide) (by omega)
  apply Nat.eq_of_testBit_eq
  intro i
  rw [Nat.mul_comm, Nat.mul_comm _ (2 ^ (s + 1)), Nat.testBit_or, Nat.testBit_two_pow_mul,
    Nat.testBit_two_pow_mul_add _ hlt, Nat.testBit_two_pow, Nat.testBit_div_two_pow,
    Nat.testBit_div_two_pow]
  rcases Nat.lt_trichotomy i s with hi | rfl | hi
  · simp [show ¬ s ≤ i by omega, show s ≠ i by omega, show i < s + 1 by omega]
  · simp
  · rw [if_neg (by omega), Nat.sub_add_cancel (by omega), Nat.sub_add_cancel (by omega)]
    simp [show s ≤ i by omega, show s ≠ i by omega]

/-- A number and its negative have the lowest one bit in common, and no other. -/
lemma and_neg_marked {m s : Nat} (hs : s < 64) (h : m * 2 ^ (s + 1) + 2 ^ s < 2 ^ 64) :
    (m * 2 ^ (s + 1) + 2 ^ s) &&& (2 ^ 64 - (m * 2 ^ (s + 1) + 2 ^ s)) = 2 ^ s := by
  have hlt : 2 ^ s < 2 ^ (s + 1) := Nat.pow_lt_pow_right (by decide) (by omega)
  have hpos := Nat.two_pow_pos s
  -- the negative is the complement of the number before
  have hneg : 2 ^ 64 - (m * 2 ^ (s + 1) + 2 ^ s) =
      2 ^ 64 - ((2 ^ (s + 1) * m + (2 ^ s - 1)) + 1) := by
    rw [Nat.mul_comm m]
    omega
  apply Nat.eq_of_testBit_eq
  intro i
  rw [hneg, Nat.mul_comm m, Nat.testBit_and, Nat.testBit_two_pow_sub_succ (by
      rw [Nat.mul_comm m] at h
      omega),
    Nat.testBit_two_pow_mul_add _ hlt, Nat.testBit_two_pow_mul_add _ (by omega),
    Nat.testBit_two_pow, Nat.testBit_two_pow_sub_one]
  rcases Nat.lt_trichotomy i s with hi | rfl | hi
  · simp [hi, show s ≠ i by omega, show i < s + 1 by omega]
  · simp [hs]
  · rw [if_neg (by omega), if_neg (by omega)]
    cases m.testBit (i - (s + 1)) <;> simp [show s ≠ i by omega]

/-- A number other than zero has a one bit. -/
lemma lowZeros_lt {width n : Nat} (hpos : 0 < n) (hn : n < 2 ^ width) :
    lowZeros width n < width := by
  induction width generalizing n with
  | zero => omega
  | succ width ih =>
    rw [lowZeros]
    split
    · exact Nat.succ_pos width
    · have hhalf := ih (n := n / 2) (by omega) (by rw [natPow_succ] at hn; omega)
      omega

/-- An id other than zero has a marker. -/
lemma exists_marked (h : id.toNat ≠ 0) :
    id.zeros < 64 ∧ ∃ m, id.toNat = m * 2 ^ (id.zeros + 1) + 2 ^ id.zeros := by
  have hs : id.zeros < 64 := lowZeros_lt (Nat.pos_of_ne_zero h) id.toNat_lt
  obtain ⟨m, hm⟩ := exists_odd_mul hs
  refine ⟨hs, m, hm.trans ?_⟩
  rw [natPow_succ, Nat.add_mul, Nat.one_mul, Nat.mul_comm 2 m, Nat.mul_assoc, Nat.mul_comm 2]
  rfl

/-- The marker is what an id and its negative have in common. -/
lemma bits_marker (id : CellId) : id.marker.bits = id.bits &&& -id.bits := by
  apply UInt64.toNat_inj.1
  rw [UInt64.toNat_and, UInt64.toNat_neg, toNat_bits, toNat_bits, marker, toNat_ofNat]
  by_cases h : id.toNat = 0
  · have hz : id.zeros = 64 := by rw [zeros, h]; decide
    rw [h, hz]
    decide
  · obtain ⟨hs, m, hid⟩ := exists_marked h
    have hlt := id.toNat_lt
    rw [Nat.mod_eq_of_lt (two_pow_lt_word hs), UInt64.size, Nat.mod_eq_of_lt (by omega)]
    generalize id.zeros = s at hs hid
    rw [hid] at hlt ⊢
    exact (and_neg_marked hs hlt).symm

/-- An ancestor has the bits of the id above its own marker. -/
lemma bits_ancestor (id : CellId) (level : Nat) : (id.ancestor level).bits =
    (id.bits &&& -UInt64.ofNat (levelMarker level)) ||| UInt64.ofNat (levelMarker level) := by
  have hs : levelZeros level < 64 := Nat.lt_of_le_of_lt (levelZeros_le level) (by decide)
  have hword := two_pow_lt_word hs
  have hmarker : (UInt64.ofNat (levelMarker level)).toNat = 2 ^ levelZeros level :=
    Nat.mod_eq_of_lt hword
  have hpos := Nat.two_pow_pos (levelZeros level)
  apply UInt64.toNat_inj.1
  rw [UInt64.toNat_or, UInt64.toNat_and, UInt64.toNat_neg, toNat_bits, toNat_bits, hmarker,
    show UInt64.size = 2 ^ 64 from rfl, Nat.mod_eq_of_lt (by omega), and_neg_two_pow id.toNat_lt hs,
    div_mul_or_two_pow]
  exact toNat_ancestor id level

/-- The next id is two markers further on. -/
lemma bits_next (id : CellId) : id.next.bits = id.bits + id.marker.bits <<< 1 := by
  apply UInt64.toNat_inj.1
  rw [UInt64.toNat_add, UInt64.toNat_shiftLeft, toNat_bits, toNat_bits, toNat_bits, next, marker,
    toNat_ofNat, toNat_ofNat, natPow_succ, Nat.shiftLeft_eq]
  simp only [UInt64.reduceToNat, Nat.reduceMod, Nat.reducePow]
  omega

/-- A cell is an id on one of the six faces with its marker at an even place. -/
lemma valid_iff_bits : id.Valid ↔
    id.face < faceCount ∧ id.marker.bits &&& 0x1555555555555555 ≠ 0 := by
  have hplaces : ∀ z ≤ 64,
      UInt64.ofNat (2 ^ z) &&& 0x1555555555555555 ≠ 0 ↔ z % 2 = 0 ∧ z ≤ 2 * maxLevel := by
    decide
  rw [marker, bits_ofNat, hplaces id.zeros (lowZeros_le 64 _)]
  constructor
  · rintro ⟨hface, heven, hle⟩
    exact ⟨hface, heven, hle⟩
  · rintro ⟨hface, heven, hle⟩
    exact ⟨hface, heven, hle⟩

/-! ## Extents -/

/-- The ids of a cell and of everything inside it: less than a marker away. -/
def extent (c : CellId) : Set CellId :=
  {x | c.toNat < x.toNat + c.marker.toNat ∧ x.toNat < c.toNat + c.marker.toNat}

lemma mem_extent : x ∈ c.extent ↔
    c.toNat < x.toNat + c.marker.toNat ∧ x.toNat < c.toNat + c.marker.toNat := Iff.rfl

lemma toNat_marker (h : id.zeros < 64) : id.marker.toNat = 2 ^ id.zeros := by
  rw [marker, toNat_ofNat, Nat.mod_eq_of_lt (two_pow_lt_word h)]

lemma mem_extent_self (hc : c.Valid) : c ∈ c.extent := by
  have hpos := Nat.two_pow_pos c.zeros
  rw [mem_extent, toNat_marker hc.zeros_lt]
  omega

/-- The extent lies strictly between two multiples of the bits above the marker. -/
lemma mem_extent_iff_between (hc : c.Valid) : x ∈ c.extent ↔
    c.toNat / 2 ^ (c.zeros + 1) * 2 ^ (c.zeros + 1) < x.toNat ∧
      x.toNat < (c.toNat / 2 ^ (c.zeros + 1) + 1) * 2 ^ (c.zeros + 1) := by
  have hcell := hc.toNat_eq
  have hdouble := natPow_succ 2 c.zeros
  rw [mem_extent, toNat_marker hc.zeros_lt, Nat.succ_mul]
  omega

/-- An id inside a cell agrees with it above its marker, and does not end in zeros there. -/
lemma mem_extent_iff (hc : c.Valid) : x ∈ c.extent ↔
    x.toNat / 2 ^ (c.zeros + 1) = c.toNat / 2 ^ (c.zeros + 1) ∧ ¬ 2 ^ (c.zeros + 1) ∣ x.toNat := by
  rw [mem_extent_iff_between hc]
  constructor
  · rintro ⟨hlow, hhigh⟩
    refine ⟨Nat.div_eq_of_lt_le (Nat.le_of_lt hlow) hhigh, ?_⟩
    rintro ⟨n, hn⟩
    rw [hn, Nat.mul_comm (2 ^ (c.zeros + 1)) n] at hlow hhigh
    have hgt := Nat.lt_of_mul_lt_mul_right hlow
    have hlt := Nat.lt_of_mul_lt_mul_right hhigh
    omega
  · rintro ⟨hdiv, hne⟩
    rw [← hdiv]
    refine ⟨Nat.lt_of_le_of_ne (Nat.div_mul_le_self _ _) fun heq => ?_, ?_⟩
    · exact hne ⟨_, (Nat.mul_comm _ _).trans heq |>.symm⟩
    · exact Nat.lt_mul_of_div_lt (Nat.lt_succ_self _) (Nat.two_pow_pos _)

/-! ## Nested or disjoint -/

/-- The bits of an id above one place tell those above any later place. -/
lemma div_two_pow_of_le {n m r s : Nat} (h : r ≤ s) (heq : n / 2 ^ r = m / 2 ^ r) :
    n / 2 ^ s = m / 2 ^ s := by
  obtain ⟨d, rfl⟩ := Nat.exists_eq_add_of_le h
  rw [Nat.pow_add, ← Nat.div_div_eq_div_mul, ← Nat.div_div_eq_div_mul, heq]

lemma Valid.zeros_le_iff (ha : a.Valid) (hb : b.Valid) : b.zeros ≤ a.zeros ↔ a.level ≤ b.level := by
  have hla := a.level_le
  have hlb := b.level_le
  rw [ha.zeros_eq, hb.zeros_eq, levelZeros, levelZeros]
  omega

/-- A cell lies inside another exactly if that one covers it. -/
lemma mem_extent_iff_covers (ha : a.Valid) (hb : b.Valid) : b ∈ a.extent ↔ a.Covers b := by
  constructor
  · intro h
    obtain ⟨hdiv, hne⟩ := (mem_extent_iff ha).1 h
    -- the marker of the inner cell is below that of the outer one, or the inner cell ends in zeros
    have hle : b.zeros ≤ a.zeros := by
      by_contra hlt
      rw [hb.toNat_eq] at hne
      refine hne (Nat.dvd_add ?_ (pow_dvd_pow 2 (by omega)))
      exact Dvd.dvd.mul_left (pow_dvd_pow 2 (by omega)) _
    exact (covers_iff ha ((ha.zeros_le_iff hb).1 hle)).2 hdiv
  · intro h
    refine (mem_extent_iff ha).2 ⟨(covers_iff ha h.1).1 h, fun hdvd => ?_⟩
    have hle := (ha.zeros_le_iff hb).2 h.1
    obtain ⟨-, hne⟩ := (mem_extent_iff hb).1 (mem_extent_self hb)
    exact hne ((pow_dvd_pow 2 (by omega)).trans hdvd)

/-- What lies inside a covered cell lies inside the covering one. -/
lemma Covers.extent_subset (ha : a.Valid) (hb : b.Valid) (h : a.Covers b) :
    b.extent ⊆ a.extent := by
  intro x hx
  have hle := (ha.zeros_le_iff hb).2 h.1
  obtain ⟨hdiv, hne⟩ := (mem_extent_iff hb).1 hx
  refine (mem_extent_iff ha).2 ⟨?_, fun hdvd => hne ((pow_dvd_pow 2 (by omega)).trans hdvd)⟩
  rw [div_two_pow_of_le (by omega) hdiv]
  exact (covers_iff ha h.1).1 h

/-- A cell covers exactly the cells whose extent is part of its own. -/
lemma extent_subset_iff (ha : a.Valid) (hb : b.Valid) : b.extent ⊆ a.extent ↔ a.Covers b :=
  ⟨fun h => (mem_extent_iff_covers ha hb).1 (h (mem_extent_self hb)),
    Covers.extent_subset ha hb⟩

/-- A cell with an id of a finer one inside it covers it. -/
lemma covers_of_mem_extent (ha : a.Valid) (hb : b.Valid) (hl : a.level ≤ b.level)
    (hxa : x ∈ a.extent) (hxb : x ∈ b.extent) : a.Covers b := by
  have hle := (ha.zeros_le_iff hb).2 hl
  have hdiv : x.toNat / 2 ^ (a.zeros + 1) = b.toNat / 2 ^ (a.zeros + 1) :=
    div_two_pow_of_le (by omega) ((mem_extent_iff hb).1 hxb).1
  rw [((mem_extent_iff ha).1 hxa).1] at hdiv
  exact (covers_iff ha hl).2 hdiv.symm

/-- Two extents are disjoint, or one is part of the other. -/
lemma extent_disjoint_or_subset (ha : a.Valid) (hb : b.Valid) :
    Disjoint a.extent b.extent ∨ a.extent ⊆ b.extent ∨ b.extent ⊆ a.extent := by
  rw [extent_subset_iff ha hb, extent_subset_iff hb ha, or_iff_not_imp_left, Set.not_disjoint_iff]
  rintro ⟨x, hxa, hxb⟩
  rcases Nat.le_total a.level b.level with hl | hl
  · exact .inr (covers_of_mem_extent ha hb hl hxa hxb)
  · exact .inl (covers_of_mem_extent hb ha hl hxb hxa)

/-! ## The next cell -/

/-- The cells of the six faces leave two eighths of the words free. -/
lemma Valid.toNat_lt (h : id.Valid) : id.toNat < faceCount * 2 ^ 61 := by
  have hface := h.face_lt
  rw [face] at hface
  exact Nat.lt_mul_of_div_lt hface (by decide)

/-- The bits from the marker on lie below the face bits. -/
lemma Valid.two_pow_zeros_le (h : id.Valid) : 2 ^ (id.zeros + 1) ≤ 2 ^ 61 := by
  have hle := h.zeros_le
  rw [maxLevel] at hle
  exact Nat.pow_le_pow_right (by decide) (by omega)

/-- The next id is found without a carry out of the word. -/
lemma Valid.toNat_next (h : id.Valid) : id.next.toNat = id.toNat + 2 ^ (id.zeros + 1) := by
  have hlt := h.toNat_lt
  have hstep := h.two_pow_zeros_le
  rw [faceCount] at hlt
  rw [next, toNat_ofNat, Nat.mod_eq_of_lt (by omega)]

/-- The next id has its marker at the same place. -/
lemma Valid.zeros_next (h : id.Valid) : id.next.zeros = id.zeros := by
  have hcell := h.toNat_eq
  apply @zeros_of_toNat_eq _ (id.toNat / 2 ^ (id.zeros + 1) + 1) _ h.zeros_lt
  rw [h.toNat_next, Nat.succ_mul]
  omega

lemma Valid.marker_next (h : id.Valid) : id.next.marker = id.marker := by
  rw [marker, h.zeros_next, marker]

lemma Valid.level_next (h : id.Valid) : id.next.level = id.level := by
  rw [level, h.zeros_next, level]

/-- The next id is a cell if there is still a face for it. -/
lemma Valid.valid_next_iff (h : id.Valid) :
    id.next.Valid ↔ id.next.toNat < faceCount * 2 ^ 61 := by
  constructor
  · intro hnext
    exact hnext.toNat_lt
  · intro hlt
    refine ⟨Nat.div_lt_of_lt_mul (by rwa [Nat.mul_comm] at hlt), ?_, ?_⟩
    · rw [h.zeros_next]
      exact h.zeros_even
    · rw [h.zeros_next]
      exact h.zeros_le

/-- The cell is the last one of its level on the last face. -/
def IsLast (c : CellId) : Prop :=
  IsGreatest {x : CellId | x.Valid ∧ x.face = faceCount - 1 ∧ x.level = c.level} c

/-- Cells of one level are at least two markers apart. -/
lemma Valid.toNat_next_le (ha : a.Valid) (hb : b.Valid) (hl : a.level = b.level) (hlt : a < b) :
    a.next.toNat ≤ b.toNat := by
  have hz : b.zeros = a.zeros := by rw [hb.zeros_eq, ha.zeros_eq, hl]
  have hacell := ha.toNat_eq
  have hbcell := hb.toNat_eq
  rw [hz] at hbcell
  rw [lt_def] at hlt
  have hpath := Nat.lt_of_mul_lt_mul_right
    (show a.toNat / 2 ^ (a.zeros + 1) * 2 ^ (a.zeros + 1) <
      b.toNat / 2 ^ (a.zeros + 1) * 2 ^ (a.zeros + 1) by omega)
  have hstep := Nat.mul_le_mul_right (2 ^ (a.zeros + 1)) hpath
  rw [Nat.succ_mul] at hstep
  rw [ha.toNat_next]
  omega

/-- Behind the last cell, and only there, no face is left. -/
lemma isLast_iff (hc : c.Valid) : c.IsLast ↔ faceCount * 2 ^ 61 ≤ c.next.toNat := by
  have hnext := hc.toNat_next
  have hstep := hc.two_pow_zeros_le
  have hpos := Nat.two_pow_pos (c.zeros + 1)
  constructor
  · rintro ⟨⟨-, hface, -⟩, hgreatest⟩
    by_contra hlt
    -- otherwise the next cell would be a later one on the same face
    have hvalid := hc.valid_next_iff.2 (Nat.lt_of_not_le hlt)
    have hnextFace := hvalid.face_lt
    have hmono : c.face ≤ c.next.face := Nat.div_le_div_right (by omega)
    have hle := le_def.1 (hgreatest ⟨hvalid, by omega, hc.level_next⟩)
    omega
  · intro hge
    have hlt := hc.toNat_lt
    refine ⟨⟨hc, ?_, rfl⟩, fun x hx => ?_⟩
    · rw [faceCount] at hge hlt ⊢
      rw [face]
      omega
    · obtain ⟨hvalid, -, hlevel⟩ := hx
      by_contra hxc
      have hle := hc.toNat_next_le hvalid hlevel.symm (lt_of_not_ge hxc)
      have hxlt := hvalid.toNat_lt
      omega

/-- The extent of the next cell begins at the first odd id behind the extent of the cell. -/
lemma Valid.exists_first_next (hc : c.Valid) : ∃ first, IsLeast c.next.extent first ∧
    IsLeast {x : CellId | Odd x.toNat ∧ ∀ y ∈ c.extent, y < x} first := by
  have hcell := hc.toNat_eq
  have hdouble := natPow_succ 2 c.zeros
  have hpos := Nat.two_pow_pos c.zeros
  have hlt := hc.toNat_lt
  have hstep := hc.two_pow_zeros_le
  have hnext := hc.toNat_next
  have hmarker := toNat_marker hc.zeros_lt
  rw [faceCount] at hlt
  -- the bound between the two extents is even
  have heven : Even (c.toNat + 2 ^ c.zeros) := by
    rw [Nat.even_iff]
    rw [hdouble, ← Nat.mul_assoc] at hcell
    omega
  have hfirst : (ofNat (c.toNat + 2 ^ c.zeros + 1)).toNat = c.toNat + 2 ^ c.zeros + 1 := by
    rw [toNat_ofNat, Nat.mod_eq_of_lt (by omega)]
  refine ⟨ofNat (c.toNat + 2 ^ c.zeros + 1), ⟨?_, fun x hx => ?_⟩, ⟨⟨?_, fun x hx => ?_⟩, ?_⟩⟩
  · rw [mem_extent, hfirst, hc.marker_next]
    omega
  · rw [le_def, hfirst]
    rw [mem_extent, hc.marker_next] at hx
    omega
  · rw [hfirst]
    exact heven.add_one
  · rw [lt_def, hfirst]
    rw [mem_extent] at hx
    omega
  · rintro x ⟨hodd, hafter⟩
    -- the last id of the extent is before `x`, and the one behind it is even
    have hlast : (ofNat (c.toNat + 2 ^ c.zeros - 1)).toNat = c.toNat + 2 ^ c.zeros - 1 := by
      rw [toNat_ofNat, Nat.mod_eq_of_lt (by omega)]
    have hbefore := hafter (ofNat (c.toNat + 2 ^ c.zeros - 1)) (by
      rw [mem_extent, hlast]
      omega)
    rw [lt_def, hlast] at hbefore
    rw [le_def, hfirst]
    rw [Nat.odd_iff] at hodd
    rw [Nat.even_iff] at heven
    omega

/-- **The hierarchy of cells is lawful.**

* Marker, ancestor, next id and validity are what masks make of the machine word.
* The ancestor of a cell at a level that is not deeper than its own is a cell of that level on the
  same face; at its own level it is the cell, and going up in two steps is going up in one.
* The extents of two cells are disjoint or nested, and a cell covers exactly the cells whose extent
  is part of its own.
* The extent of the next id begins at the first odd id behind the extent of the cell, no bound
  leaves the machine word, and the next id is a cell of the level unless the cell is the last one of
  its level on the last face. -/
theorem hierarchy_lawful :
    (∀ (id : CellId) (level : Nat),
      id.marker.bits = id.bits &&& -id.bits ∧
      (id.ancestor level).bits =
        (id.bits &&& -UInt64.ofNat (levelMarker level)) ||| UInt64.ofNat (levelMarker level) ∧
      id.next.bits = id.bits + id.marker.bits <<< 1 ∧
      (id.Valid ↔ id.face < faceCount ∧ id.marker.bits &&& 0x1555555555555555 ≠ 0)) ∧
    (∀ id : CellId, id.Valid → id.ancestor id.level = id ∧ ∀ l ≤ id.level,
      (id.ancestor l).Valid ∧ (id.ancestor l).level = l ∧ (id.ancestor l).face = id.face ∧
      ∀ k ≤ l, (id.ancestor l).ancestor k = id.ancestor k) ∧
    (∀ a b : CellId, a.Valid → b.Valid →
      (Disjoint a.extent b.extent ∨ a.extent ⊆ b.extent ∨ b.extent ⊆ a.extent) ∧
      (b.extent ⊆ a.extent ↔ a.level ≤ b.level ∧ b.ancestor a.level = a)) ∧
    ∀ c : CellId, c.Valid →
      (∃ first, IsLeast c.next.extent first ∧
        IsLeast {x : CellId | Odd x.toNat ∧ ∀ y ∈ c.extent, y < x} first) ∧
      (c.marker.toNat ≤ c.toNat ∧ c.next.toNat = c.toNat + 2 * c.marker.toNat ∧
        c.next.toNat + c.next.marker.toNat ≤ 2 ^ 64) ∧
      (c.next.Valid ∧ c.next.level = c.level ↔ ¬ c.IsLast) := by
  refine ⟨fun id level => ⟨id.bits_marker, id.bits_ancestor level, id.bits_next, valid_iff_bits⟩,
    fun id hid => ⟨?_, fun l hl => ?_⟩,
    fun a b ha hb => ⟨extent_disjoint_or_subset ha hb, extent_subset_iff ha hb⟩,
    fun c hc => ⟨hc.exists_first_next, ?_, ?_⟩⟩
  · apply toNat_inj.1
    rw [toNat_ancestor, ← hid.zeros_eq]
    exact hid.toNat_eq.symm
  · exact ⟨valid_ancestor hid.face_lt l, level_ancestor id (Nat.le_trans hl id.level_le),
      face_ancestor id l, fun k hk => ancestor_ancestor id hk⟩
  · have hlt := hc.toNat_lt
    have hstep := hc.two_pow_zeros_le
    have hcell := hc.toNat_eq
    have hdouble := natPow_succ 2 c.zeros
    rw [faceCount] at hlt
    rw [hc.marker_next, hc.toNat_next, toNat_marker hc.zeros_lt]
    omega
  · rw [hc.valid_next_iff, isLast_iff hc, Nat.not_le]
    exact and_iff_left hc.level_next

/-- The last leaf of the last face lies inside the last cell of level four, which has no next cell,
and inside no cell of another face. -/
theorem hierarchy_lawful_last_leaf :
    (CellId.ofNat 0xBFFFFFFFFFFFFFFF).Valid ∧ (CellId.ofNat 0xBFF0000000000000).Valid ∧
      (CellId.ofNat 0x9000000000000000).Valid ∧
      (CellId.ofNat 0xBFFFFFFFFFFFFFFF).ancestor 4 = .ofNat 0xBFF0000000000000 ∧
      ((CellId.ofNat 0xBFFFFFFFFFFFFFFF).ancestor 4).Valid ∧
      (CellId.ofNat 0xBFFFFFFFFFFFFFFF).extent ⊆ (CellId.ofNat 0xBFF0000000000000).extent ∧
      Disjoint (CellId.ofNat 0x9000000000000000).extent
        (CellId.ofNat 0xBFFFFFFFFFFFFFFF).extent ∧
      (CellId.ofNat 0xBFF0000000000000).IsLast := by
  obtain ⟨-, hancestor, hextent, hnext⟩ := hierarchy_lawful
  have hleaf : (CellId.ofNat 0xBFFFFFFFFFFFFFFF).Valid := by decide +kernel
  have hcell : (CellId.ofNat 0xBFF0000000000000).Valid := by decide +kernel
  have hface : (CellId.ofNat 0x9000000000000000).Valid := by decide +kernel
  obtain ⟨hvalid, -⟩ := (hancestor _ hleaf).2 4 (by decide +kernel)
  obtain ⟨hapart, hsubset⟩ := hextent _ _ hface hleaf
  refine ⟨hleaf, hcell, hface, by decide +kernel, hvalid,
    (hextent _ _ hcell hleaf).2.2 (by decide +kernel), ?_, ?_⟩
  · rcases hapart with h | h | h
    · exact h
    · exact absurd ((hextent _ _ hleaf hface).2.1 h) (by decide +kernel)
    · exact absurd (hsubset.1 h) (by decide +kernel)
  · by_contra hlast
    exact absurd ((hnext _ hcell).2.2.2 hlast).1 (by decide +kernel)

end CellIndex.CellId
