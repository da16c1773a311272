import CellIndex.Proofs.SuffixTable.Lookup
import CellIndex.RangeFile.Basic
import Mathlib.Data.List.Dedup

/-!
# The file of some ranges

`IsFileOf` says that a file gives back given ranges: every prefix leads to the table of the ranges
that begin with it (`PrefixTable.ofRanges`), and all ranges are given back in their order.  A
look-up in such a file is a scan of the ranges (`IsFileOf.find_eq`).
-/

namespace CellIndex

variable {f : Format} {p : UInt32} {ranges : List CellRange} {id : CellId}

lemma isGroup_rangesOfPrefix (h : ∀ range ∈ ranges, range.Storable f)
    (hne : rangesOfPrefix f ranges p ≠ []) : IsGroup f p (rangesOfPrefix f ranges p) where
  ne_nil := hne
  storable range hr := h range (mem_rangesOfPrefix.1 hr).1
  prefixOf_eq _ hr := (mem_rangesOfPrefix.1 hr).2

/-- A scan for a cell only needs to look at the ranges of its prefix. -/
lemma find?_rangesOfPrefix (h : ∀ range ∈ ranges, range.Storable f) :
    (rangesOfPrefix f ranges (f.prefixOf id)).find? (·.Contains (f.cellOf id)) =
      ranges.find? (·.Contains (f.cellOf id)) := by
  rw [rangesOfPrefix, List.find?_filter]
  induction ranges with
  | nil => rfl
  | cons range ranges ih =>
    have htail := ih fun r hr => h r (List.mem_cons_of_mem _ hr)
    have hfit := h range List.mem_cons_self
    -- a range that holds the cell has its prefix, so the filter does not drop it
    by_cases hc : range.Contains (f.cellOf id)
    · have hp := (hfit.contains_iff.1 hc).1
      rw [List.find?_cons_of_pos (by simp [hc, hp]), List.find?_cons_of_pos (by simp [hc])]
    · rw [List.find?_cons_of_neg (by simp [hc]), List.find?_cons_of_neg (by simp [hc]), htail]

/-- In ranges that stand in order, a scan finds any range that holds the cell. -/
lemma find?_contains_of_mem (h : ranges.Pairwise fun a b => a.stop ≤ b.start) {range : CellRange}
    (hr : range ∈ ranges) (hc : range.Contains id) :
    ranges.find? (·.Contains id) = some range := by
  obtain ⟨front, back, rfl⟩ := List.append_of_mem hr
  have hfront : front.find? (·.Contains id) = none := by
    refine List.find?_eq_none.2 fun other ho hco => ?_
    have hle := (List.pairwise_append.1 h).2.2 other ho range List.mem_cons_self
    have hlt := (of_decide_eq_true hco).2
    exact not_lt_of_ge (le_trans hle hc.1) hlt
  rw [List.find?_append, hfront, Option.none_or, List.find?_cons_of_pos (by simpa using hc)]

/-- Of ranges that stand in order, at most one holds a given cell. -/
lemma countP_contains_le_one (h : ranges.Pairwise fun a b => a.stop ≤ b.start) (id : CellId) :
    ranges.countP (·.Contains id) ≤ 1 := by
  induction ranges with
  | nil => exact Nat.zero_le 1
  | cons range ranges ih =>
    obtain ⟨hrange, hrest⟩ := List.pairwise_cons.1 h
    by_cases hc : range.Contains id
    · have hnone : ∀ other ∈ ranges, ¬ decide (other.Contains id) = true := by
        intro other ho hco
        have hge := (of_decide_eq_true hco).1
        exact not_lt_of_ge (le_trans (hrange other ho) hge) hc.2
      rw [List.countP_cons_of_pos (by simpa using hc)]
      exact Nat.succ_le_succ (Nat.le_of_eq (List.countP_eq_zero.2 hnone))
    · rw [List.countP_cons_of_neg (by simpa using hc)]
      exact ih hrest

namespace PrefixTable

/-- What a file of the given ranges holds for a prefix: the table of the ranges that begin with it,
if there are any. -/
def ofRanges (f : Format) (ranges : List CellRange) (p : UInt32) : PrefixTable f :=
  match rangesOfPrefix f ranges p with
  | [] => .unpopulated p
  | first :: rest => .populated (SuffixTable.ofGroup f p (first :: rest))

lemma ofRanges_of_eq_nil (h : rangesOfPrefix f ranges p = []) :
    ofRanges f ranges p = .unpopulated p := by
  rw [ofRanges, h]

lemma ofRanges_of_ne_nil (h : rangesOfPrefix f ranges p ≠ []) :
    ofRanges f ranges p = .populated (SuffixTable.ofGroup f p (rangesOfPrefix f ranges p)) := by
  rw [ofRanges]
  cases hr : rangesOfPrefix f ranges p with
  | nil => exact absurd hr h
  | cons first rest => rfl

@[simp] lemma tablePrefix_ofRanges (f : Format) (ranges : List CellRange) (p : UInt32) :
    (ofRanges f ranges p).tablePrefix = p := by
  by_cases h : rangesOfPrefix f ranges p = []
  · rw [ofRanges_of_eq_nil h]
    rfl
  · rw [ofRanges_of_ne_nil h]
    rfl

/-- There is a table exactly if a range begins with the prefix. -/
lemma isPopulated_ofRanges : (ofRanges f ranges p).isPopulated = true ↔
    ∃ range ∈ ranges, f.prefixOf range.start = p := by
  by_cases h : rangesOfPrefix f ranges p = []
  · rw [ofRanges_of_eq_nil h]
    refine iff_of_false Bool.false_ne_true ?_
    rintro ⟨range, hr⟩
    exact List.ne_nil_of_mem (mem_rangesOfPrefix.2 hr) h
  · rw [ofRanges_of_ne_nil h]
    obtain ⟨range, hr⟩ := List.exists_mem_of_ne_nil _ h
    exact iff_of_true rfl ⟨range, mem_rangesOfPrefix.1 hr⟩

lemma size_ofRanges (f : Format) (ranges : List CellRange) (p : UInt32) :
    (ofRanges f ranges p).size = (rangesOfPrefix f ranges p).length := by
  by_cases h : rangesOfPrefix f ranges p = []
  · rw [ofRanges_of_eq_nil h, h]
    rfl
  · rw [ofRanges_of_ne_nil h]
    simp [size, SuffixTable.ofGroup]

/-- The entry at a place is the range at that place. -/
lemma entryAt_ofRanges (h : ∀ range ∈ ranges, range.Storable f) (index : Nat) :
    (ofRanges f ranges p).entryAt index =
      match (rangesOfPrefix f ranges p)[index]? with
      | some range => .ok ⟨index, range.stored f⟩
      | none => .error (.indexOutOfBounds index (rangesOfPrefix f ranges p).length) := by
  by_cases hne : rangesOfPrefix f ranges p = []
  · rw [ofRanges_of_eq_nil hne, hne]
    rfl
  · rw [ofRanges_of_ne_nil hne]
    exact SuffixTable.entryAt_ofGroup (isGroup_rangesOfPrefix h hne) index

/-- A look-up under the prefix of a cell is a scan of all ranges. -/
lemma find_ofRanges (h : ∀ range ∈ ranges, range.Storable f)
    (hp : ranges.Pairwise fun a b => a.stop ≤ b.start) (id : CellId) :
    ((ofRanges f ranges (f.prefixOf id)).find id).map Entry.range =
      (ranges.find? (·.Contains (f.cellOf id))).map (·.stored f) := by
  rw [← find?_rangesOfPrefix h]
  by_cases hne : rangesOfPrefix f ranges (f.prefixOf id) = []
  · rw [ofRanges_of_eq_nil hne, hne]
    rfl
  · rw [ofRanges_of_ne_nil hne]
    exact SuffixTable.find_ofGroup (isGroup_rangesOfPrefix h hne) (hp.filter _) rfl

end PrefixTable

namespace RangeFile

/-- The file gives back the given ranges, as its format stores them. -/
structure IsFileOf (r : RangeFile) (ranges : List CellRange) : Prop where
  /-- Every range fits a suffix table. -/
  storable : ∀ range ∈ ranges, range.Storable r.format
  /-- The ranges stand in order. -/
  pairwise : ranges.Pairwise fun a b => a.stop ≤ b.start
  /-- Every prefix leads to the table of its ranges. -/
  prefixTable_eq : ∀ p, p.toNat ≤ r.format.maxPrefix →
    r.prefixTable p = .ok (.ofRanges r.format ranges p)
  /-- All ranges are given back in their order. -/
  ranges_eq : r.ranges = ranges.map fun range => .ok (range.stored r.format)
  /-- There is one table for each prefix that a range begins with. -/
  tableCount_eq :
    r.tableCount = (ranges.map fun range => r.format.prefixOf range.start).dedup.length

namespace IsFileOf

variable {r : RangeFile}

/-- A look-up in a file is a scan of its ranges. -/
lemma find_eq (h : r.IsFileOf ranges) (id : CellId) :
    r.find id =
      .ok ((ranges.find? (·.Contains (r.format.cellOf id))).map (·.stored r.format)) := by
  have htable := h.prefixTable_eq (r.format.prefixOf id) (r.format.prefixOf_le id)
  rw [find, htable]
  exact congrArg Except.ok (PrefixTable.find_ofRanges h.storable h.pairwise id)

end IsFileOf

end RangeFile

end CellIndex
