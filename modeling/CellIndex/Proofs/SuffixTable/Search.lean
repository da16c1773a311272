import CellIndex.Proofs.SuffixTable.Table

/-!
# Searching a table as it is stored

A block is read as a suffix table whatever its records are: they may stand in any order, overlap, be
empty, or reach beyond their prefix.  A look-up still ends only at a record that holds the suffix,
since the search has seen that record begin by it (`holds_of_find`).  If the starts of the records
ascend, the search counts the records that begin by the suffix (`lt_border_iff`), so the last of
them alone decides (**`find_ofBlock`**).
-/

namespace CellIndex

open Sequence

variable {f : Format} {block : Block} {id : CellId} {bytes : Bytes} {index other suffix : Nat}

namespace Record

/-- The record holds a suffix. -/
def Holds (r : Record) (suffix : Nat) : Prop := r.start ≤ suffix ∧ suffix < r.start + r.length

instance (r : Record) (suffix : Nat) : Decidable (r.Holds suffix) :=
  inferInstanceAs (Decidable (_ ∧ _))

/-- The starts of the records in a run of bytes ascend. -/
def Ascending (f : Format) (bytes : Bytes) : Prop :=
  (decodeAll f bytes).Pairwise fun a b => a.start < b.start

instance (f : Format) (bytes : Bytes) : Decidable (Ascending f bytes) :=
  inferInstanceAs (Decidable (List.Pairwise _ _))

/-- Of the records in a run of bytes that begin at or before a suffix, the one at a place has the
greatest start. -/
structure IsLastBy (f : Format) (bytes : Bytes) (suffix index : Nat) : Prop where
  lt_count : index < bytes.length / f.recordBytes
  start_le : (readAt f bytes index).start ≤ suffix
  greatest : ∀ other < bytes.length / f.recordBytes, (readAt f bytes other).start ≤ suffix →
    (readAt f bytes other).start ≤ (readAt f bytes index).start

instance (f : Format) (bytes : Bytes) (suffix index : Nat) :
    Decidable (IsLastBy f bytes suffix index) :=
  decidable_of_iff
    (index < bytes.length / f.recordBytes ∧ (readAt f bytes index).start ≤ suffix ∧
      ∀ other < bytes.length / f.recordBytes, (readAt f bytes other).start ≤ suffix →
        (readAt f bytes other).start ≤ (readAt f bytes index).start)
    ⟨fun ⟨h, h', h''⟩ => ⟨h, h', h''⟩, fun ⟨h, h', h''⟩ => ⟨h, h', h''⟩⟩

lemma getElem_decodeAll (h : index < (decodeAll f bytes).length) :
    (decodeAll f bytes)[index] = readAt f bytes index := by
  have hget := getElem?_decodeAll (length_decodeAll f bytes ▸ h)
  rw [List.getElem?_eq_getElem h] at hget
  exact Option.some.inj hget

lemma Ascending.start_lt (h : Ascending f bytes) (hlt : index < other)
    (ho : other < bytes.length / f.recordBytes) :
    (readAt f bytes index).start < (readAt f bytes other).start := by
  rw [← length_decodeAll] at ho
  have hget := List.pairwise_iff_getElem.1 h index other (Nat.lt_trans hlt ho) ho hlt
  rwa [getElem_decodeAll, getElem_decodeAll] at hget

end Record

namespace SuffixTable

open Record

variable {t : SuffixTable f} {r : Record} {e : Entry}

/-- The records of a block are those in its bytes. -/
lemma records_of_ofBlock (h : ofBlock f block = .ok t) :
    t.records = (decodeAll f block.data).toArray := by
  rw [ofBlock] at h
  split at h
  · cases h
  · simp only [ite_error_eq_ok] at h
    rw [← Except.ok.inj h.2.2]

lemma size_records (h : ofBlock f block = .ok t) :
    t.records.size = block.data.length / f.recordBytes := by
  rw [records_of_ofBlock h, List.size_toArray, length_decodeAll]

lemma getElem?_records_of_ofBlock (h : ofBlock f block = .ok t)
    (hi : index < block.data.length / f.recordBytes) :
    t.records[index]? = some (readAt f block.data index) := by
  rw [records_of_ofBlock h, List.getElem?_toArray, getElem?_decodeAll hi]

/-! ## The border -/

/-- Where the search for a suffix ends: the records below are taken to begin by the suffix. -/
def border (t : SuffixTable f) (suffix : Nat) : Nat :=
  Search.bisect (t.startsBy suffix) 0 t.records.size

/-- The search has seen the record below the border begin by the suffix. -/
lemma start_le_of_border (hborder : t.border suffix = index + 1)
    (hget : t.records[index]? = some r) : r.start ≤ suffix := by
  have hseen := @Search.bisect_pred (t.startsBy suffix) 0 t.records.size
    (Nat.lt_of_lt_of_eq (Nat.succ_pos index) hborder.symm)
  rw [border] at hborder
  rw [hborder, Nat.add_sub_cancel, startsBy, hget] at hseen
  exact of_decide_eq_true hseen

/-- What a look-up ends at: the record below the border, if it reaches the suffix. -/
lemma find_eq_some_iff : t.find id = some e ↔ f.prefixOf id = t.tablePrefix ∧
    ∃ index r, t.border (f.suffixOf id) = index + 1 ∧ t.records[index]? = some r ∧
      r.Holds (f.suffixOf id) ∧ t.entry index r = e := by
  by_cases hp : f.prefixOf id = t.tablePrefix
  · rw [find, if_neg (not_not_intro hp), and_iff_right hp]
    cases hborder : t.border (f.suffixOf id) with
    | zero =>
      rw [border] at hborder
      simp [hborder]
    | succ index =>
      have hseen := fun r => @start_le_of_border _ index (f.suffixOf id) t r hborder
      rw [border] at hborder
      cases hget : t.records[index]? with
      | none => simp [hborder, hget]
      | some r =>
        have hreach : f.suffixOf id - r.start < r.length ↔ r.Holds (f.suffixOf id) := by
          rw [Holds, and_iff_right (hseen r hget)]
          have := hseen r hget
          omega
        by_cases hholds : r.Holds (f.suffixOf id)
        · simp [hborder, hget, hreach, hholds]
        · simp [hborder, hget, hreach, hholds]
  · rw [find, if_pos hp]
    simp [hp]

/-- If the starts of the records ascend, the records below the border are those that begin by the
suffix. -/
lemma lt_border_iff (h : ofBlock f block = .ok t) (hasc : Ascending f block.data)
    (hi : index < block.data.length / f.recordBytes) :
    index < t.border suffix ↔ (readAt f block.data index).start ≤ suffix := by
  have hfront : (decodeAll f block.data).Pairwise fun a b => decide (b.start ≤ suffix) = true →
      decide (a.start ≤ suffix) = true :=
    hasc.imp fun hab hb => decide_eq_true (Nat.le_trans (Nat.le_of_lt hab) (of_decide_eq_true hb))
  have hlen : index < (decodeAll f block.data).length := by rwa [length_decodeAll]
  have hsize : t.records.size = (decodeAll f block.data).length := by
    rw [records_of_ofBlock h, List.size_toArray]
  have hcount : t.border suffix = (decodeAll f block.data).countP (·.start ≤ suffix) := by
    rw [border, hsize]
    refine Search.bisect_eq_countP hfront fun i hi => ?_
    rw [startsBy, records_of_ofBlock h, List.getElem?_toArray, List.getElem?_eq_getElem hi]
  rw [hcount, ← Search.getElem_iff_lt_countP hfront hlen, getElem_decodeAll, decide_eq_true_eq]

/-- If the starts of the records ascend, the record below the border is the last that begins by the
suffix. -/
lemma border_eq_iff_isLastBy (h : ofBlock f block = .ok t) (hasc : Ascending f block.data) :
    t.border suffix = index + 1 ↔ IsLastBy f block.data suffix index := by
  have hle : t.border suffix ≤ block.data.length / f.recordBytes := by
    rw [← size_records h]
    exact (Search.bisect_bounds _ (Nat.zero_le _)).2
  constructor
  · intro hborder
    have hlt : index < block.data.length / f.recordBytes := by omega
    refine ⟨hlt, (lt_border_iff h hasc hlt).1 (by omega), fun other ho hstart => ?_⟩
    have hbelow := (lt_border_iff h hasc ho).2 hstart
    rcases Nat.lt_or_ge other index with hlt' | hge
    · exact Nat.le_of_lt (hasc.start_lt hlt' hlt)
    · obtain rfl : other = index := by omega
      exact Nat.le_refl _
  · rintro ⟨hlt, hstart, hgreatest⟩
    have hbelow := (lt_border_iff h hasc hlt).2 hstart
    -- a record behind it that begins by the suffix would begin later
    by_contra hne
    have hnext : index + 1 < block.data.length / f.recordBytes := by omega
    have hstart' : (readAt f block.data (index + 1)).start ≤ suffix :=
      (lt_border_iff h hasc hnext).1 (by omega)
    have hgt := hasc.start_lt (Nat.lt_add_one index) hnext
    have hle' := hgreatest _ hnext hstart'
    omega

/-! ## Look-ups -/

/-- A look-up ends at a record that holds the suffix, in whatever order the records are. -/
lemma holds_of_find (h : ofBlock f block = .ok t) (hfind : t.find id = some e) :
    e.index < block.data.length / f.recordBytes ∧
      (readAt f block.data e.index).Holds (f.suffixOf id) ∧
      t.entry e.index (readAt f block.data e.index) = e := by
  obtain ⟨-, index, r, -, hget, hholds, rfl⟩ := find_eq_some_iff.1 hfind
  have hlt : index < block.data.length / f.recordBytes := by
    rw [← size_records h]
    exact (Array.getElem?_eq_some_iff.1 hget).1
  rw [getElem?_records_of_ofBlock h hlt] at hget
  obtain rfl := Option.some.inj hget
  exact ⟨hlt, hholds, rfl⟩

/-- What a look-up gives is the entry at its place. -/
lemma entryAt_of_find (hfind : t.find id = some e) : t.entryAt e.index = .ok e := by
  obtain ⟨-, index, r, -, hget, -, rfl⟩ := find_eq_some_iff.1 hfind
  have hentry : (t.entry index r).index = index := rfl
  rw [entryAt, hentry, hget]

/-- If the starts of the records ascend, a look-up ends at the last record that begins by the
suffix. -/
lemma isLastBy_of_find (h : ofBlock f block = .ok t) (hasc : Ascending f block.data)
    (hfind : t.find id = some e) : IsLastBy f block.data (f.suffixOf id) e.index := by
  obtain ⟨-, index, r, hborder, -, -, rfl⟩ := find_eq_some_iff.1 hfind
  exact (border_eq_iff_isLastBy h hasc).1 hborder

/-- If the last record that begins by the suffix reaches it, the look-up finds it. -/
lemma exists_find_of_isLastBy (h : ofBlock f block = .ok t) (hasc : Ascending f block.data)
    (hp : f.prefixOf id = t.tablePrefix) (hlast : IsLastBy f block.data (f.suffixOf id) index)
    (hholds : (readAt f block.data index).Holds (f.suffixOf id)) : ∃ e, t.find id = some e :=
  ⟨_, find_eq_some_iff.2 ⟨hp, index, _, (border_eq_iff_isLastBy h hasc).2 hlast,
    getElem?_records_of_ofBlock h hlast.lt_count, hholds, rfl⟩⟩

/-- **A look-up in a table is exact.**  Whatever the bytes of a block are, if they are read as a
suffix table:

* an id of another prefix is not found;
* what is found is the entry at its place, and the record there holds the suffix of the id;
* if the starts of the records ascend, something is found exactly if the last record that begins at
  or before the suffix reaches it, and it is the entry of that record. -/
theorem find_ofBlock (h : ofBlock f block = .ok t) (id : CellId) :
    (f.prefixOf id ≠ t.tablePrefix → t.find id = none) ∧
      (∀ e, t.find id = some e → e.index < block.data.length / f.recordBytes ∧
        (readAt f block.data e.index).Holds (f.suffixOf id) ∧
        t.entry e.index (readAt f block.data e.index) = e ∧ t.entryAt e.index = .ok e) ∧
      (Ascending f block.data → f.prefixOf id = t.tablePrefix →
        ((∃ e, t.find id = some e) ↔ ∃ index, IsLastBy f block.data (f.suffixOf id) index ∧
          (readAt f block.data index).Holds (f.suffixOf id)) ∧
        ∀ e, t.find id = some e → IsLastBy f block.data (f.suffixOf id) e.index) := by
  refine ⟨fun hne => if_pos hne, fun e hfind => ?_, fun hasc hp => ⟨⟨?_, ?_⟩, fun e hfind => ?_⟩⟩
  · obtain ⟨hlt, hholds, hentry⟩ := holds_of_find h hfind
    exact ⟨hlt, hholds, hentry, entryAt_of_find hfind⟩
  · rintro ⟨e, hfind⟩
    exact ⟨e.index, isLastBy_of_find h hasc hfind, (holds_of_find h hfind).2.1⟩
  · rintro ⟨index, hlast, hholds⟩
    exact exists_find_of_isLastBy h hasc hp hlast hholds
  · exact isLastBy_of_find h hasc hfind

/-- A format whose records are two digits in base sixteen: a start and a length. -/
def digitFormat : Format where
  params :=
    { level := 2, prefixBits := 3, suffixBits := 4, blockOffset := 1, recordBits := 8
      allowedList := true, valueBytes := 1 }
  valid := Params.fault?_eq_none_iff.1 (by decide)

/-- A long record, and a short one that begins inside it. -/
def overlappingBlock : Block where
  id := 1
  shared := [0, 0, 0, 0, 0, 0, 0, 2, 7, 8]
  data := [0x1F, 0x52]

/-- The short record is found where it reaches.  Behind its end nothing is found, although the long
record goes on there. -/
theorem find_ofBlock_overlapping : ∃ t, ofBlock digitFormat overlappingBlock = .ok t ∧
    t.find (digitFormat.cellAt 6) =
      some ⟨1, ⟨digitFormat.cellAt 5, digitFormat.cellAt 7, some 8⟩⟩ ∧
    t.find (digitFormat.cellAt 8) = none ∧
    (readAt digitFormat overlappingBlock.data 0).Holds 8 := by
  obtain ⟨t, ht, hblock, hentry⟩ : ∃ t, ofBlock digitFormat overlappingBlock = .ok t ∧
      t.tablePrefix = 0 ∧
      t.entryAt 1 = .ok ⟨1, ⟨digitFormat.cellAt 5, digitFormat.cellAt 7, some 8⟩⟩ :=
    ⟨_, rfl, by decide +kernel, by decide +kernel⟩
  have hasc : Ascending digitFormat overlappingBlock.data := by decide +kernel
  -- at both suffixes the short record is the last that has begun
  have hlast : ∀ suffix index, 5 ≤ suffix →
      IsLastBy digitFormat overlappingBlock.data suffix index → index = 1 := by
    rintro suffix index hle ⟨hlt, -, hgreatest⟩
    have hlt : index < 2 := hlt
    have hshort := hgreatest 1 (by decide +kernel) hle
    obtain rfl | rfl : index = 0 ∨ index = 1 := by omega
    · exact absurd hshort (by decide +kernel)
    · rfl
  refine ⟨t, ht, ?_, ?_, by decide +kernel⟩
  · obtain ⟨-, hfound, hexact⟩ := find_ofBlock ht (digitFormat.cellAt 6)
    obtain ⟨hiff, hplace⟩ := hexact hasc (hblock ▸ by decide +kernel)
    obtain ⟨e, hfind⟩ := hiff.2 ⟨1, by decide +kernel, by decide +kernel⟩
    obtain ⟨-, -, -, he⟩ := hfound e hfind
    rw [hlast _ _ (by decide +kernel) (hplace e hfind), hentry] at he
    rw [hfind, Except.ok.inj he]
  · obtain ⟨-, hfound, hexact⟩ := find_ofBlock ht (digitFormat.cellAt 8)
    obtain ⟨-, hplace⟩ := hexact hasc (hblock ▸ by decide +kernel)
    refine Option.eq_none_iff_forall_ne_some.2 fun e hfind => ?_
    have hholds := (hfound e hfind).2.1
    rw [hlast _ _ (by decide +kernel) (hplace e hfind)] at hholds
    exact absurd hholds (by decide +kernel)

end SuffixTable

end CellIndex
