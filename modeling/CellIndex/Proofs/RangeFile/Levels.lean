import CellIndex.Proofs.RangeFile.Session

/-!
# Hits for cells of other levels

A look-up asks for the cell of the level at the position of an id.  For a cell of the level, and for
a finer one, this is the cell itself or the one above it, so a hit is one for the whole cell.  For a
coarser cell the marker is read as if it belonged to the path.  This leads to one of the descendants
in the middle of all (`position_of_coarser`), and a hit says nothing about the others
(**`find_hit`**): they may lie in no range at all (`find_hit_of_face`).
-/

namespace CellIndex

variable {f : Format} {ranges : List CellRange} {range : CellRange} {q x : CellId}

namespace Format

/-- The only cell of the level above a cell is the one that the cell belongs to. -/
lemma eq_cellOf_of_covers (hq : q.Valid) (hx : f.IsCell x) (h : x.Covers q) : x = f.cellOf q := by
  rw [cellOf, ← ancestor_eq_cellAt hq, ← hx.2]
  exact h.2.symm

/-- The cell of the level that belongs to a coarser cell is one of its descendants. -/
lemma covers_cellOf (hq : q.Valid) (hl : q.level ≤ f.level) : q.Covers (f.cellOf q) := by
  have hle := tailBits_le_zeros hq hl
  rw [CellId.covers_iff hq (by rwa [(isCell_cellOf hq).2]), cellOf, toNat_cellAt (f.position_lt q),
    position, CellId.div_marked_div hle]

/-- The marker of a coarser cell is read as part of its position, which is that of the middle of its
descendants. -/
lemma position_of_coarser (hq : q.Valid) (hl : q.level < f.level) :
    f.position q = q.toNat / 2 ^ (q.zeros + 1) * 4 ^ (f.level - q.level) +
      4 ^ (f.level - q.level) / 2 := by
  obtain ⟨k, hk⟩ : ∃ k, q.zeros = f.tailBits + 1 + k := by
    have hzeros := zeros_eq_add hq (Nat.le_of_lt hl)
    exact ⟨q.zeros - f.tailBits - 1, by omega⟩
  have hwidth : 4 ^ (f.level - q.level) = 2 ^ k * 2 := by
    rw [width_eq hq (Nat.le_of_lt hl), ← Nat.pow_succ]
    congr 1
    omega
  have hmarker : 2 ^ q.zeros = 2 ^ k * 2 ^ (f.tailBits + 1) := by
    rw [← Nat.pow_add]
    congr 1
    omega
  have hnum := hq.toNat_eq
  generalize q.toNat / 2 ^ (q.zeros + 1) = path at hnum ⊢
  rw [Nat.pow_succ, hmarker] at hnum
  rw [hwidth, Nat.mul_div_cancel _ (by decide), position]
  refine Nat.div_eq_of_eq_mul_left (Nat.two_pow_pos _) ?_
  rw [hnum, Nat.add_mul, Nat.mul_assoc path, Nat.mul_right_comm (2 ^ k)]

end Format

namespace RangeFile

variable {r : RangeFile}

/-- A hit is confirmed for a cell if all cells of the level that it lies in or consists of are in
stored ranges with the value of the range that has been found. -/
def Confirms (r : RangeFile) (q : CellId) (range : CellRange) : Prop :=
  ∀ x, r.format.IsCell x → x.Covers q ∨ q.Covers x →
    ∃ other, .ok other ∈ r.ranges ∧ other.Contains x ∧ other.value = range.value

/-- What is found is a stored range that holds the cell of the level. -/
lemma IsFileOf.contains_of_find (h : r.IsFileOf ranges) (hfind : r.find q = .ok (some range)) :
    .ok range ∈ r.ranges ∧ range.Contains (r.format.cellOf q) := by
  rw [h.find_eq, Except.ok.injEq, Option.map_eq_some_iff] at hfind
  obtain ⟨original, hscan, rfl⟩ := hfind
  have hcontains : original.Contains (r.format.cellOf q) := by simpa using List.find?_some hscan
  refine ⟨?_, ?_⟩
  · rw [h.ranges_eq]
    exact List.mem_map_of_mem (List.mem_of_find?_eq_some hscan)
  · rw [CellRange.stored]
    split
    · exact hcontains
    · exact hcontains

/-- An id is found where its cell of the level is. -/
lemma IsFileOf.find_cellOf (h : r.IsFileOf ranges) (q : CellId) :
    r.find (r.format.cellOf q) = r.find q := by
  rw [h.find_eq, h.find_eq, Format.cellOf, Format.position_cellOf, Format.cellOf]

/-- A hit for a cell of the level or a finer one is confirmed by the range that has been found. -/
lemma IsFileOf.confirms (h : r.IsFileOf ranges) (hq : q.Valid) (hl : r.format.level ≤ q.level)
    (hfind : r.find q = .ok (some range)) : r.Confirms q range := by
  obtain ⟨hstored, hcontains⟩ := h.contains_of_find hfind
  intro x hx hrelated
  have hcover : x.Covers q := by
    rcases hrelated with hcover | ⟨hle, hancestor⟩
    · exact hcover
    · -- the asked cell is of the level itself, and so it is `x`
      have hself : x.ancestor r.format.level = x := by
        rw [Format.ancestor_eq_cellAt hx.1, hx.isBoundary.cellAt_position]
      rw [Nat.le_antisymm (hx.2 ▸ hle) hl, hself] at hancestor
      subst hancestor
      exact ⟨Nat.le_refl _, hx.2 ▸ hself⟩
  rw [← Format.eq_cellOf_of_covers hq hx hcover] at hcontains
  exact ⟨range, hstored, hcontains, rfl⟩

end RangeFile

namespace RangeWriter

variable {folder folder₁ folder₂ folder₃ : Folder} {target : Path} {w w' : RangeWriter}
  {batches : List (List CellRange)} {timestamp : Int64}

/-- **What a hit says.**  In a file that has been written, a hit for a cell of the level or a finer
one is confirmed: the cell of the level lies in a stored range with the value.  A hit for a coarser
cell is one for a single descendant, the first of those in the second half, and nothing follows for
the others. -/
theorem find_hit (hcreate : create folder target f = .ok (w, folder₁))
    (hwrite : Accepts w folder₁ batches w' folder₂)
    (hclose : w'.close folder₂ timestamp = (.ok (), folder₃)) :
    ∃ bytes r, folder₃.read target = .ok bytes ∧ RangeFile.ofBytes bytes = .ok r ∧ r.format = f ∧
      ∀ q range, q.Valid → r.find q = .ok (some range) →
        (f.level ≤ q.level → r.Confirms q range) ∧
          (q.level < f.level → f.IsCell (f.cellOf q) ∧ q.Covers (f.cellOf q) ∧
            f.position (f.cellOf q) = q.toNat / 2 ^ (q.zeros + 1) * 4 ^ (f.level - q.level) +
              4 ^ (f.level - q.level) / 2 ∧
            r.find (f.cellOf q) = .ok (some range) ∧ .ok range ∈ r.ranges ∧
            range.Contains (f.cellOf q)) := by
  obtain ⟨bytes, r, hread, hr, rfl, hfile⟩ := exists_file_of_session hcreate hwrite hclose
  refine ⟨bytes, r, hread, hr, rfl, fun q range hq hfind => ⟨fun hl => ?_, fun hl => ?_⟩⟩
  · exact hfile.confirms hq hl hfind
  · obtain ⟨hstored, hcontains⟩ := hfile.contains_of_find hfind
    refine ⟨Format.isCell_cellOf hq, Format.covers_cellOf hq (Nat.le_of_lt hl), ?_, ?_, hstored,
      hcontains⟩
    · rw [Format.position_cellOf]
      exact Format.position_of_coarser hq hl
    · rw [hfile.find_cellOf]
      exact hfind

/-- The file of one range. -/
lemma exists_sample_file : ∃ w folder₁ w' folder₂ folder₃,
    create .empty ⟨["cells"]⟩ sampleFormat = .ok (w, folder₁) ∧
      Accepts w folder₁ [[sampleRange 2 3 7]] w' folder₂ ∧
      w'.close folder₂ 0 = (.ok (), folder₃) ∧
      ∃ bytes r, folder₃.read ⟨["cells"]⟩ = .ok bytes ∧ RangeFile.ofBytes bytes = .ok r ∧
        r.format = sampleFormat ∧ r.IsFileOf [sampleRange 2 3 7] := by
  obtain ⟨w, folder₁, w', folder₂, folder₃, hcreate, hwrite, hclose⟩ :=
    @exists_sample_session [[sampleRange 2 3 7]] (by decide +kernel)
  exact ⟨w, folder₁, w', folder₂, folder₃, hcreate, hwrite, hclose,
    exists_file_of_session hcreate hwrite hclose⟩

/-- A leaf of the stored cell is confirmed, and the face above it has been found for that cell. -/
theorem find_hit_leaf : ∃ w folder₁ w' folder₂ folder₃,
    create .empty ⟨["cells"]⟩ sampleFormat = .ok (w, folder₁) ∧
      Accepts w folder₁ [[sampleRange 2 3 7]] w' folder₂ ∧
      w'.close folder₂ 0 = (.ok (), folder₃) ∧
      ∃ bytes r, folder₃.read ⟨["cells"]⟩ = .ok bytes ∧ RangeFile.ofBytes bytes = .ok r ∧
        r.find (.ofNat 0x1000000000000001) = .ok (some (sampleRange 2 3 7)) ∧
        r.Confirms (.ofNat 0x1000000000000001) (sampleRange 2 3 7) ∧
        r.find (.ofNat 0x1000000000000000) = .ok (some (sampleRange 2 3 7)) ∧
        (CellId.ofNat 0x1000000000000000).Covers (sampleFormat.cellAt 2) ∧
        (sampleRange 2 3 7).Contains (sampleFormat.cellAt 2) := by
  obtain ⟨w, folder₁, w', folder₂, folder₃, hcreate, hwrite, hclose, bytes, r, hread, hr, hformat,
    hfile⟩ := exists_sample_file
  obtain ⟨bytes', r', hread', hr', -, hhit⟩ := find_hit hcreate hwrite hclose
  obtain rfl : bytes = bytes' := Except.ok.inj (hread.symm.trans hread')
  obtain rfl : r = r' := Except.ok.inj (hr.symm.trans hr')
  have hleaf : r.find (.ofNat 0x1000000000000001) = .ok (some (sampleRange 2 3 7)) := by
    rw [hfile.find_eq, hformat]
    decide +kernel
  have hface : r.find (.ofNat 0x1000000000000000) = .ok (some (sampleRange 2 3 7)) := by
    rw [hfile.find_eq, hformat]
    decide +kernel
  have hconfirmed := (hhit _ _ (by decide +kernel) hleaf).1 (by decide +kernel)
  obtain ⟨-, hcovers, -, -, -, hcontains⟩ :=
    (hhit _ _ (by decide +kernel) hface).2 (by decide +kernel)
  have hcell : sampleFormat.cellOf (.ofNat 0x1000000000000000) = sampleFormat.cellAt 2 := by
    decide +kernel
  rw [hcell] at hcovers hcontains
  exact ⟨w, folder₁, w', folder₂, folder₃, hcreate, hwrite, hclose, bytes, r, hread, hr, hleaf,
    hconfirmed, hface, hcovers, hcontains⟩

/-- The face is found although only one of its four children is stored, by a range that begins
behind it. -/
theorem not_confirms_face : ∃ w folder₁ w' folder₂ folder₃,
    create .empty ⟨["cells"]⟩ sampleFormat = .ok (w, folder₁) ∧
      Accepts w folder₁ [[sampleRange 2 3 7]] w' folder₂ ∧
      w'.close folder₂ 0 = (.ok (), folder₃) ∧
      ∃ bytes r, folder₃.read ⟨["cells"]⟩ = .ok bytes ∧ RangeFile.ofBytes bytes = .ok r ∧
        (CellId.ofNat 0x1000000000000000).Valid ∧
        r.find (.ofNat 0x1000000000000000) = .ok (some (sampleRange 2 3 7)) ∧
        CellId.ofNat 0x1000000000000000 < (sampleRange 2 3 7).start ∧
        ¬ r.Confirms (.ofNat 0x1000000000000000) (sampleRange 2 3 7) := by
  obtain ⟨w, folder₁, w', folder₂, folder₃, hcreate, hwrite, hclose, bytes, r, hread, hr, hformat,
    hfile⟩ := exists_sample_file
  have hface : r.find (.ofNat 0x1000000000000000) = .ok (some (sampleRange 2 3 7)) := by
    rw [hfile.find_eq, hformat]
    decide +kernel
  refine ⟨w, folder₁, w', folder₂, folder₃, hcreate, hwrite, hclose, bytes, r, hread, hr,
    by decide +kernel, hface, by decide +kernel, fun hconfirms => ?_⟩
  -- the first child is in no range
  obtain ⟨other, hother, hcontains, -⟩ := hconfirms (sampleFormat.cellAt 0)
    (by rw [hformat]; decide +kernel) (.inr (by decide +kernel))
  rw [hfile.ranges_eq, hformat, List.map_singleton, List.mem_singleton] at hother
  obtain rfl := Except.ok.inj hother
  exact absurd hcontains (by decide +kernel)

end RangeWriter

end CellIndex
