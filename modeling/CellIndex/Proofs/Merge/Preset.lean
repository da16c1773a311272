import CellIndex.Proofs.Format.Header
import CellIndex.Proofs.Merge.Minimal
import CellIndex.Proofs.RangeFile.Offending

/-!
# Ranges inside one prefix

Two things follow if the records of a format can say the length of a whole prefix: no range inside a
prefix is too long to be added (`holdsPrefixes_iff`), and merging cuts such a range nowhere
(`joinsInPrefixes_iff`).  Both fail if they cannot.  A record says its length in the bits that the
suffix leaves over, so it can say that of a prefix exactly if these are more than the bits of the
suffix (`two_pow_suffixBits_le_maxLength_iff`).

The ready-made formats take twice the bits of a suffix and one more, rounded up to whole bytes, but
no more than eight bytes.  Up to level 19 this is enough for a prefix; from level 20 on, where a
suffix has 32 bits or more, it is not (**`preset_prefixes`**).
-/

namespace CellIndex

open CellId (faceCount)
open CellIndex.RangeBuilder (checkRange)
open CellIndex.Span (prefixEnd cut pieces toRange ofEntry covered_pieces)

variable {f : Format} {tablePrefix : UInt32} {first last : Nat} {v : Option UInt32}
  {range : CellRange}

/-- The range of a prefix from one suffix up to another. -/
def CellRange.ofSuffixes (f : Format) (tablePrefix : UInt32) (first last : Nat)
    (value : Option UInt32) : CellRange where
  start := f.cellAt (tablePrefix.toNat * 2 ^ f.suffixBits + first)
  stop := f.cellAt (tablePrefix.toNat * 2 ^ f.suffixBits + last)
  value := value

namespace Format

/-- A prefix of one of the six faces. -/
def OnFace (f : Format) (tablePrefix : UInt32) : Prop :=
  tablePrefix.toNat ≤ f.maxPrefix ∧ (f.faceOfPrefix tablePrefix).toNat < faceCount

/-- Every range inside a prefix lies where a suffix table can hold it, and is never refused for its
length. -/
def HoldsPrefixes (f : Format) : Prop :=
  ∀ tablePrefix first last value, f.OnFace tablePrefix → first < last → last ≤ f.maxSuffix + 1 →
    (CellRange.ofSuffixes f tablePrefix first last value).Placed f ∧
      ∀ lastPrefix lastStop length most,
        checkRange f lastPrefix lastStop (.ofSuffixes f tablePrefix first last value) ≠
          .error (.invalidRange (.ofSuffixes f tablePrefix first last value)
            (.tooLong length most))

/-- Merged ranges that touch each other inside a prefix have different values. -/
def JoinsInPrefixes (f : Format) : Prop :=
  ∀ cells ranges, mergeCells f cells = .ok ranges → ∀ a ∈ ranges, ∀ b ∈ ranges,
    a.stop = b.start → f.prefixOf a.start = f.prefixOf b.start → a.value ≠ b.value

/-- A record can say the length of a whole prefix if it has more bits for the length than for the
suffix. -/
lemma two_pow_suffixBits_le_maxLength_iff :
    2 ^ f.suffixBits ≤ f.maxLength ↔ f.suffixBits < f.lengthBits := by
  have hpos := Nat.two_pow_pos f.lengthBits
  rw [← Nat.pow_lt_pow_iff_right (a := 2) (by decide), maxLength]
  omega

/-- The prefixes of the six faces cover the cells of the level and no other positions. -/
lemma OnFace.mul_le (h : f.OnFace tablePrefix) :
    (tablePrefix.toNat + 1) * 2 ^ f.suffixBits ≤ f.cellCount := by
  obtain ⟨hmax, hface⟩ := h
  have hlow : 3 ≤ f.prefixBits := f.valid.prefixBits_ge
  have hbits : f.prefixBits + f.suffixBits = 3 + 2 * f.level := f.dataBits_eq
  have hsplit : 2 ^ f.prefixBits = 2 ^ (f.prefixBits - 3) * 8 := by
    rw [show (8 : Nat) = 2 ^ 3 from rfl, ← Nat.pow_add, Nat.sub_add_cancel hlow]
  have hpos := Nat.two_pow_pos (f.prefixBits - 3)
  have hquot : tablePrefix.toNat / 2 ^ (f.prefixBits - 3) < 8 := by
    rw [maxPrefix] at hmax
    exact Nat.div_lt_of_lt_mul (by omega)
  have hlt : tablePrefix.toNat < 6 * 2 ^ (f.prefixBits - 3) := by
    rw [faceOfPrefix, UInt8.toNat_ofNat', Nat.mod_eq_of_lt (by omega)] at hface
    exact (Nat.div_lt_iff_lt_mul hpos).1 hface
  calc (tablePrefix.toNat + 1) * 2 ^ f.suffixBits
      ≤ 6 * 2 ^ (f.prefixBits - 3) * 2 ^ f.suffixBits := Nat.mul_le_mul_right _ hlt
    _ = f.cellCount := by
        rw [cellCount, Nat.mul_assoc, ← Nat.pow_add, show f.prefixBits - 3 + f.suffixBits =
          2 * f.level by omega, Nat.pow_mul]

lemma OnFace.first_lt (h : f.OnFace tablePrefix) (hlt : first < last)
    (hle : last ≤ f.maxSuffix + 1) :
    tablePrefix.toNat * 2 ^ f.suffixBits + first < f.cellCount := by
  have hmul := h.mul_le
  rw [f.maxSuffix_add_one] at hle
  rw [Nat.add_mul, Nat.one_mul] at hmul
  omega

lemma OnFace.last_lt (h : f.OnFace tablePrefix) (hle : last ≤ f.maxSuffix + 1) :
    tablePrefix.toNat * 2 ^ f.suffixBits + last < f.positionCount := by
  have hmul := h.mul_le
  have hcount := f.cellCount_lt
  rw [f.maxSuffix_add_one] at hle
  rw [Nat.add_mul, Nat.one_mul] at hmul
  omega

/-- The first prefix lies on the first face. -/
lemma onFace_zero (f : Format) : f.OnFace 0 := by
  refine ⟨Nat.zero_le _, ?_⟩
  rw [faceOfPrefix, show (0 : UInt32).toNat = 0 from rfl, Nat.zero_div]
  decide

end Format

/-! ## Adding a range -/

namespace CellRange

/-- What a range inside a prefix is, whatever its length. -/
structure Inside (f : Format) (tablePrefix : UInt32) (first last : Nat) (range : CellRange) :
    Prop where
  isCell_start : f.IsCell range.start
  isBoundary_stop : f.IsBoundary range.stop
  start_lt_stop : range.start < range.stop
  inTable : f.suffixOf range.start + f.rangeLength range.start range.stop ≤ 2 ^ f.suffixBits
  rangeLength_eq : f.rangeLength range.start range.stop = last - first

lemma inside_ofSuffixes (h : f.OnFace tablePrefix) (hlt : first < last)
    (hle : last ≤ f.maxSuffix + 1) :
    Inside f tablePrefix first last (ofSuffixes f tablePrefix first last v) := by
  have hfirst := h.first_lt hlt hle
  have hlast := h.last_lt hle
  have hstart : f.IsCell (ofSuffixes f tablePrefix first last v).start :=
    Format.isCell_cellAt hfirst
  have hstop : f.IsBoundary (ofSuffixes f tablePrefix first last v).stop :=
    Format.isBoundary_cellAt hlast
  have hpstart : f.position (ofSuffixes f tablePrefix first last v).start =
      tablePrefix.toNat * 2 ^ f.suffixBits + first :=
    Format.position_cellAt (Nat.lt_trans hfirst f.cellCount_lt)
  have hpstop : f.position (ofSuffixes f tablePrefix first last v).stop =
      tablePrefix.toNat * 2 ^ f.suffixBits + last := Format.position_cellAt hlast
  have hlength : f.rangeLength (ofSuffixes f tablePrefix first last v).start
      (ofSuffixes f tablePrefix first last v).stop = last - first := by
    rw [Format.rangeLength, hpstart, hpstop]
    omega
  rw [f.maxSuffix_add_one] at hle
  refine ⟨hstart, hstop, ?_, ?_, hlength⟩
  · rw [hstart.isBoundary.lt_iff hstop, hpstart, hpstop]
    omega
  · rw [hlength, Format.suffixOf, hpstart, Nat.mul_add_mod_self_right, Nat.mod_eq_of_lt (by omega)]
    omega

/-- A range inside a prefix obeys all rules for its place, save that it may be too long. -/
lemma Inside.placed (h : Inside f tablePrefix first last range)
    (hshort : last - first ≤ f.maxLength) : range.Placed f := by
  have hlt := (h.isCell_start.isBoundary.lt_iff h.isBoundary_stop).1 h.start_lt_stop
  exact ⟨h.isCell_start, h.isBoundary_stop, h.start_lt_stop,
    (inPrefix_iff (Nat.le_of_lt hlt)).2 h.inTable, h.rangeLength_eq ▸ hshort⟩

end CellRange

namespace RangeBuilder

/-- A range is refused for its length only if no record can say it. -/
lemma checkRange_ne_tooLong {lastPrefix : Option UInt32} {lastStop : Option CellId}
    {length most : Nat} (h : f.rangeLength range.start range.stop ≤ f.maxLength) :
    checkRange f lastPrefix lastStop range ≠
      .error (.invalidRange range (.tooLong length most)) := by
  intro he
  simp only [checkRange, if_neg (Nat.not_lt.2 h)] at he
  repeat' split at he
  all_goals cases he

/-- A range inside a prefix that comes first is refused for its length exactly if no record can say
it. -/
lemma checkRange_tooLong_iff (h : CellRange.Inside f tablePrefix first last range) :
    checkRange f none none range =
        .error (.invalidRange range (.tooLong (last - first) f.maxLength)) ↔
      f.maxLength < last - first := by
  constructor
  · intro he
    by_contra hshort
    exact checkRange_ne_tooLong (h.rangeLength_eq ▸ Nat.not_lt.1 hshort) he
  · intro hlong
    have hcell : ¬ (¬ f.IsCell range.start ∨ ¬ f.IsBoundary range.stop) := by
      simp [h.isCell_start, h.isBoundary_stop]
    have htable : ¬ f.maxSuffix + 1 < f.suffixOf range.start + (last - first) := by
      rw [f.maxSuffix_add_one, ← h.rangeLength_eq]
      exact Nat.not_lt.2 h.inTable
    -- all checks that come before that of the length are passed
    simp only [checkRange, if_neg (not_le.2 h.start_lt_stop), if_neg hcell, Option.any_none,
      Bool.false_eq_true, if_false, h.rangeLength_eq, if_neg htable, if_pos hlong]

end RangeBuilder

/-- Any range inside a prefix can be added exactly if a record can say the length of a prefix. -/
lemma holdsPrefixes_iff : f.HoldsPrefixes ↔ 2 ^ f.suffixBits ≤ f.maxLength := by
  constructor
  · intro h
    have hpos := Nat.two_pow_pos f.suffixBits
    have hmax := f.maxSuffix_add_one
    -- the whole first prefix
    have hpositive : 0 < f.maxSuffix + 1 := by omega
    have hinside := CellRange.inside_ofSuffixes (v := none) f.onFace_zero hpositive (Nat.le_refl _)
    have hwhole := (h 0 0 (f.maxSuffix + 1) none f.onFace_zero hpositive (Nat.le_refl _)).1.short
    rw [hinside.rangeLength_eq] at hwhole
    omega
  · intro hroom tablePrefix first last v hface hlt hle
    have hinside := CellRange.inside_ofSuffixes (v := v) hface hlt hle
    have hshort : last - first ≤ f.maxLength := by
      rw [f.maxSuffix_add_one] at hle
      omega
    exact ⟨hinside.placed hshort, fun _ _ _ _ =>
      RangeBuilder.checkRange_ne_tooLong (hinside.rangeLength_eq ▸ hshort)⟩

/-! ## Merging -/

section Merging

variable {cells : List CellEntry} {ranges : List CellRange} {a b : CellRange}

/-- Merged ranges that touch each other inside a prefix and have the same value are cut for one
reason: a record cannot say more than the length of the first. -/
lemma rangeLength_of_touching (h : mergeCells f cells = .ok ranges) (ha : a ∈ ranges)
    (hb : b ∈ ranges) (htouch : a.stop = b.start)
    (hsame : f.prefixOf a.start = f.prefixOf b.start) (hvalue : a.value = b.value) :
    f.rangeLength a.start a.stop = f.maxLength := by
  have hfit := cellsFit_of_mergeCells h
  obtain ⟨joined, hj, hne, hcov, rfl⟩ := exists_joined_of_mergeCells h
  have hm := merged_of_joined hfit hj hcov
  obtain ⟨s, hs, rfl⟩ := List.mem_map.1 ha
  obtain ⟨t, ht, rfl⟩ := List.mem_map.1 hb
  have hst : s.stop = t.start := by
    rw [← hm.position_stop hs, ← hm.position_start ht, htouch]
  obtain ⟨whole, hwhole, hpiece⟩ := List.mem_flatMap.1 hs
  have hsnonempty := (hm.fits s hs).nonempty
  have hinwhole := (covered_pieces f whole).1
    ⟨s, hpiece, ⟨Nat.le_refl s.start, hsnonempty⟩, rfl⟩
  -- the joined span goes on behind the first range, since it has the second as well
  have hgoes : s.stop ≠ whole.stop := by
    intro heq
    refine Span.not_covered_stop_of_mem hj hwhole (hne whole hwhole) ?_
    rw [← Span.covered_flatMap_pieces (f := f), ← heq, hst]
    exact ⟨t, ht, ⟨Nat.le_refl _, (hm.fits t ht).nonempty⟩, hvalue.symm.trans hinwhole.2.symm⟩
  -- and so does the prefix
  have hinside : s.stop ≠ prefixEnd f s.start := by
    intro heq
    have hquot : s.start / 2 ^ f.suffixBits = t.start / 2 ^ f.suffixBits := by
      rw [← hm.position_start hs, ← hm.position_start ht, ← Format.toNat_prefixOf,
        ← Format.toNat_prefixOf, hsame]
    rw [← hst, heq, prefixEnd, Nat.mul_div_cancel _ (Nat.two_pow_pos _)] at hquot
    omega
  have hcut := Span.stop_eq_cut f whole s hpiece
  rw [Format.rangeLength, hm.position_start hs, hm.position_stop hs]
  simp only [cut] at hcut
  omega

/-- The first face is the cells at the first positions. -/
lemma mergeCells_wholeFace (f : Format) : mergeCells f wholeFace =
    .ok ((pieces f ⟨0, 4 ^ f.level, Span.keptValue f (some 7)⟩).map (toRange f)) := by
  have hlevel : (CellId.ofNat 0x1000000000000000).level = 0 := by decide +kernel
  have hpath : (CellId.ofNat 0x1000000000000000).toNat /
      2 ^ ((CellId.ofNat 0x1000000000000000).zeros + 1) = 0 := by decide +kernel
  have hfit : CellsFit f wholeFace := by
    intro entry he
    obtain rfl := List.mem_singleton.1 he
    exact ⟨by decide +kernel, hlevel ▸ Nat.zero_le _⟩
  have hface : wholeFace.map (ofEntry f) = [⟨0, 4 ^ f.level, Span.keptValue f (some 7)⟩] := by
    simp only [wholeFace, List.map_singleton, ofEntry, hlevel, hpath, Nat.sub_zero, Nat.zero_mul,
      Nat.zero_add, Nat.one_mul]
  rw [mergeCells_eq hfit, hface, List.mergeSort_singleton, ← Span.ranges_eq_map_toRange]
  exact congrArg Except.ok (List.append_nil _)

/-- If a record cannot say the length of a prefix, the first face is cut in its first prefix. -/
lemma pieces_wholeFace (hroom : f.maxLength < 2 ^ f.suffixBits) : ∃ stop rest,
    pieces f ⟨0, 4 ^ f.level, v⟩ = ⟨0, f.maxLength, v⟩ :: ⟨f.maxLength, stop, v⟩ :: rest := by
  have hlow : 3 ≤ f.prefixBits := f.valid.prefixBits_ge
  have hbits : f.prefixBits + f.suffixBits = 3 + 2 * f.level := f.dataBits_eq
  have hface : 2 ^ f.suffixBits ≤ 4 ^ f.level :=
    calc 2 ^ f.suffixBits ≤ 2 ^ (2 * f.level) := Nat.pow_le_pow_right (by decide) (by omega)
      _ = 4 ^ f.level := Nat.pow_mul 2 2 f.level
  have hcut : cut f 0 (4 ^ f.level) = f.maxLength := by
    rw [cut, prefixEnd, Nat.zero_div]
    omega
  have hlt : f.maxLength < 4 ^ f.level := by omega
  have hpos : 0 < 4 ^ f.level := Nat.pow_pos (by decide)
  rw [pieces, if_pos hpos, hcut, pieces, if_pos hlt]
  exact ⟨_, _, rfl⟩

/-- Merging cuts no range inside a prefix exactly if a record can say the length of a prefix. -/
lemma joinsInPrefixes_iff : f.JoinsInPrefixes ↔ 2 ^ f.suffixBits ≤ f.maxLength := by
  constructor
  · intro h
    by_contra hroom
    rw [Nat.not_le] at hroom
    obtain ⟨stop, rest, hpieces⟩ := pieces_wholeFace (v := Span.keptValue f (some 7)) hroom
    have hmerge := mergeCells_wholeFace f
    rw [hpieces, List.map_cons, List.map_cons] at hmerge
    -- the first two ranges touch each other in the first prefix and have the same value
    refine h _ _ hmerge _ List.mem_cons_self _ (List.mem_cons_of_mem _ List.mem_cons_self)
      rfl ?_ rfl
    have hcount : 2 ^ f.suffixBits ≤ f.positionCount :=
      Nat.pow_le_pow_right (by decide) (Nat.le_add_left _ _)
    apply UInt32.toNat_inj.1
    rw [Format.toNat_prefixOf, Format.toNat_prefixOf]
    simp only [toRange]
    rw [Format.position_cellAt (by omega), Format.position_cellAt (by omega), Nat.zero_div,
      Nat.div_eq_of_lt hroom]
  · intro hroom cells ranges h a ha b hb htouch hsame hvalue
    have hlength := rangeLength_of_touching h ha hb htouch hsame hvalue
    have hstart := f.position_eq a.start
    have hstop := f.position_eq b.start
    have hlt := f.suffixOf_lt b.start
    rw [Format.rangeLength, htouch] at hlength
    rw [hsame] at hstart
    omega

end Merging

/-! ## Ready-made formats -/

/-- The ready-made formats have records that can say the length of a prefix up to level 19. -/
lemma two_pow_suffixBits_le_maxLength_preset_iff {level valueBytes : UInt8} {allowedList : Bool}
    {version : UInt32} (h : Format.preset level allowedList valueBytes version = .ok f) :
    2 ^ f.suffixBits ≤ f.maxLength ↔ level.toNat ≤ 19 := by
  rw [Format.preset] at h
  split at h
  · cases h
  · next hlevel =>
    rw [not_or, Nat.not_lt, CellId.maxLevel] at hlevel
    have hp := Format.ofParams_eq_ok_iff.1 h
    rw [Format.two_pow_suffixBits_le_maxLength_iff, Format.lengthBits, Format.suffixBits, hp]
    simp only [UInt32.toNat_ofNat']
    omega

/-- **Ready-made formats and prefixes.**  Up to level 19, and from there on no more, a ready-made
format has records for all ranges inside a prefix: none is refused for its length, and merging cuts
none.  At every level, what is too long for a record is all that is refused, and the length of a
record is the only reason for a cut inside a prefix. -/
theorem preset_prefixes {level valueBytes : UInt8} {allowedList : Bool} {version : UInt32}
    (h : Format.preset level allowedList valueBytes version = .ok f) :
    (f.HoldsPrefixes ↔ level.toNat ≤ 19) ∧ (f.JoinsInPrefixes ↔ level.toNat ≤ 19) ∧
      (∀ tablePrefix first last value, f.OnFace tablePrefix → first < last →
        last ≤ f.maxSuffix + 1 →
          (checkRange f none none (.ofSuffixes f tablePrefix first last value) =
              .error (.invalidRange (.ofSuffixes f tablePrefix first last value)
                (.tooLong (last - first) f.maxLength)) ↔
            f.maxLength < last - first)) ∧
      ∀ cells ranges, mergeCells f cells = .ok ranges → ∀ a ∈ ranges, ∀ b ∈ ranges,
        a.stop = b.start → f.prefixOf a.start = f.prefixOf b.start → a.value = b.value →
          f.rangeLength a.start a.stop = f.maxLength := by
  have hroom := two_pow_suffixBits_le_maxLength_preset_iff h
  refine ⟨holdsPrefixes_iff.trans hroom, joinsInPrefixes_iff.trans hroom, ?_, ?_⟩
  · intro tablePrefix first last v hface hlt hle
    exact RangeBuilder.checkRange_tooLong_iff (CellRange.inside_ofSuffixes hface hlt hle)
  · intro cells ranges hm a ha b hb
    exact rangeLength_of_touching hm ha hb

/-- The ready-made format of level 19 has records for all ranges inside a prefix. -/
theorem preset_prefixes_nineteen : ∃ f, Format.preset 19 true 0 0 = .ok f ∧
    f.HoldsPrefixes ∧ f.JoinsInPrefixes := by
  obtain ⟨f, h⟩ : ∃ f, Format.preset 19 true 0 0 = .ok f := ⟨_, rfl⟩
  obtain ⟨hholds, hjoins, -⟩ := preset_prefixes h
  exact ⟨f, h, hholds.2 (by decide), hjoins.2 (by decide)⟩

/-- The ready-made format of level 20, without values. -/
def twentyFormat : Format where
  params :=
    { level := 20, prefixBits := 11, suffixBits := 32, blockOffset := 5, recordBits := 64
      allowedList := true }
  valid := Params.fault?_eq_none_iff.1 (by decide)

/-- The cell of level four that covers the first prefix of eleven bits. -/
def firstPrefix : List CellEntry := [⟨.ofNat 0x0010000000000000, none⟩]

/-- The first prefix at level 20 is one cell too long for a record: as one range it is refused, and
merged it becomes two. -/
theorem preset_cuts_prefix : Format.preset 20 true 0 0 = .ok twentyFormat ∧
    checkRange twentyFormat none none (.ofSuffixes twentyFormat 0 0 (2 ^ 32) none) =
      .error (.invalidRange (.ofSuffixes twentyFormat 0 0 (2 ^ 32) none)
        (.tooLong (2 ^ 32) (2 ^ 32 - 1))) ∧
    mergeCells twentyFormat firstPrefix =
      .ok [.ofSuffixes twentyFormat 0 0 (2 ^ 32 - 1) none,
        .ofSuffixes twentyFormat 0 (2 ^ 32 - 1) (2 ^ 32) none] ∧
    ¬ twentyFormat.HoldsPrefixes ∧ ¬ twentyFormat.JoinsInPrefixes := by
  have hpreset : Format.preset 20 true 0 0 = .ok twentyFormat := rfl
  have hroom : ¬ 2 ^ twentyFormat.suffixBits ≤ twentyFormat.maxLength := by decide +kernel
  have hfit : CellsFit twentyFormat firstPrefix := by
    unfold CellsFit
    decide +kernel
  refine ⟨hpreset, by decide +kernel, ?_, mt holdsPrefixes_iff.1 hroom,
    mt joinsInPrefixes_iff.1 hroom⟩
  rw [mergeCells_eq hfit, firstPrefix, List.map_singleton, List.mergeSort_singleton]
  decide +kernel

end CellIndex
