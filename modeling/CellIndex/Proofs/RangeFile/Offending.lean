import CellIndex.Proofs.RangeFile.Rules

/-!
# The first range that breaks a rule

A range is refused for its place or for its value.  The place comes first: the error is about the
value only if nothing else is wrong with the range (`checkRange_of_inPlace`,
`checkRange_of_not_inPlace`).  A batch is refused for the first of its ranges that breaks a rule
(`exists_of_checkBatch_eq_error`), and what a range has to follow is the range right before it
(`checkBatch_append`).
-/

namespace CellIndex

open Sequence

variable {f : Format} {range : CellRange}

namespace CellRange

/-- The range begins at a cell of the level, ends at a bound of cells behind it but not behind its
prefix, and a record can say its length. -/
structure Placed (f : Format) (range : CellRange) : Prop where
  isCell_start : f.IsCell range.start
  isBoundary_stop : f.IsBoundary range.stop
  start_lt_stop : range.start < range.stop
  inPrefix : f.position range.stop ≤ ((f.prefixOf range.start).toNat + 1) * 2 ^ f.suffixBits
  short : f.rangeLength range.start range.stop ≤ f.maxLength

/-- The range has a value that the format can store, if the format stores values. -/
def HasValue (f : Format) (range : CellRange) : Prop :=
  0 < f.valueBytes → ∃ value, range.value = some value ∧ value.toNat ≤ f.maxValue

/-- A range ends inside its prefix exactly if suffix and length say so. -/
lemma inPrefix_iff (h : f.position range.start ≤ f.position range.stop) :
    f.position range.stop ≤ ((f.prefixOf range.start).toNat + 1) * 2 ^ f.suffixBits ↔
      f.suffixOf range.start + f.rangeLength range.start range.stop ≤ 2 ^ f.suffixBits := by
  have hstart := f.position_eq range.start
  rw [Format.rangeLength, Nat.add_mul, Nat.one_mul]
  omega

lemma storable_iff : range.Storable f ↔ range.Placed f ∧ range.HasValue f := by
  constructor
  · intro h
    refine ⟨⟨h.isCell_start, h.isBoundary_stop, h.start_lt_stop, ?_, h.inRecord⟩, fun hv => ?_⟩
    · exact (inPrefix_iff (Nat.le_of_lt h.position_lt)).2 h.inTable
    · exact h.value (Nat.ne_of_gt hv)
  · rintro ⟨h, hvalue⟩
    have hlt := (h.isCell_start.isBoundary.lt_iff h.isBoundary_stop).1 h.start_lt_stop
    exact ⟨h.start_lt_stop, h.isCell_start, h.isBoundary_stop,
      (inPrefix_iff (Nat.le_of_lt hlt)).1 h.inPrefix, h.short,
      fun hv => hvalue (Nat.pos_of_ne_zero hv)⟩

end CellRange

namespace RangeBuilder

variable {lastPrefix : Option UInt32} {lastStop : Option CellId} {batch front back : List CellRange}
  {e : Error}

/-! ## One range -/

/-- The range lies where a suffix table can hold it, and it comes after what has been written. -/
def InPlace (f : Format) (lastPrefix : Option UInt32) (lastStop : Option CellId)
    (range : CellRange) : Prop :=
  range.Placed f ∧ Follows f lastPrefix lastStop range

lemma checkRange_eq_ok_iff_inPlace :
    checkRange f lastPrefix lastStop range = .ok () ↔
      InPlace f lastPrefix lastStop range ∧ range.HasValue f := by
  rw [checkRange_eq_ok_iff, CellRange.storable_iff, InPlace]
  exact and_right_comm

/-- A range that is in place is only refused for its value. -/
lemma checkRange_of_inPlace (h : InPlace f lastPrefix lastStop range)
    (he : checkRange f lastPrefix lastStop range = .error e) :
    ∃ fault, e = .invalidArgument fault := by
  obtain ⟨hplaced, hstop, hfresh⟩ := h
  have hlt := (hplaced.isCell_start.isBoundary.lt_iff hplaced.isBoundary_stop).1
    hplaced.start_lt_stop
  have hmax := f.maxSuffix_add_one
  have htable := (CellRange.inPrefix_iff (Nat.le_of_lt hlt)).1 hplaced.inPrefix
  have hcell : ¬ (¬ f.IsCell range.start ∨ ¬ f.IsBoundary range.stop) := by
    simp [hplaced.isCell_start, hplaced.isBoundary_stop]
  simp only [checkRange, if_neg (not_le.2 hplaced.start_lt_stop), if_neg hcell,
    not_any_start_lt.2 hstop, not_any_prefix_le.2 hfresh, hmax, if_neg (Nat.not_lt.2 htable),
    if_neg (Nat.not_lt.2 hplaced.short), Bool.false_eq_true, if_false] at he
  split at he
  · exact absurd he (by simp)
  · split at he
    · exact ⟨_, (Except.error.inj he).symm⟩
    · split at he
      · exact ⟨_, (Except.error.inj he).symm⟩
      · exact absurd he (by simp)

/-- A check in front of other checks refuses no range as a range only if they do not either. -/
lemma not_exists_fault_ite {c : Prop} [Decidable c] {fault : RangeFault} {x : Except Error Unit} :
    (¬ ∃ fault', (if c then .error (.invalidRange range fault) else x) =
        .error (.invalidRange range fault')) ↔
      ¬ c ∧ ¬ ∃ fault', x = .error (.invalidRange range fault') := by
  split
  · next h => exact iff_of_false (not_not_intro ⟨fault, rfl⟩) fun hn => hn.1 h
  · next h => exact (and_iff_right h).symm

/-- A range that is not in place is refused as a range, whatever its value. -/
lemma checkRange_of_not_inPlace (h : ¬ InPlace f lastPrefix lastStop range) :
    ∃ fault, checkRange f lastPrefix lastStop range = .error (.invalidRange range fault) := by
  by_contra hne
  refine h ?_
  -- none of the checks before that of the value has found a fault
  simp only [checkRange, not_exists_fault_ite] at hne
  obtain ⟨hempty, hcell, hstop, hfresh, htable, hrecord, -⟩ := hne
  rw [not_or, not_not, not_not] at hcell
  rw [Bool.not_eq_true] at hstop hfresh
  have hmax := f.maxSuffix_add_one
  have hlt := (hcell.1.isBoundary.lt_iff hcell.2).1 (not_le.1 hempty)
  refine ⟨⟨hcell.1, hcell.2, not_le.1 hempty, ?_, Nat.not_lt.1 hrecord⟩,
    not_any_start_lt.1 hstop, not_any_prefix_le.1 hfresh⟩
  exact (CellRange.inPrefix_iff (Nat.le_of_lt hlt)).2 (by omega)

/-! ## A batch -/

/-- Where the last range ends after some more ranges. -/
def stopAfter (lastStop : Option CellId) (front : List CellRange) : Option CellId :=
  (front.getLast?.map CellRange.stop).or lastStop

@[simp] lemma stopAfter_cons (lastStop : Option CellId) (range : CellRange)
    (front : List CellRange) :
    stopAfter lastStop (range :: front) = stopAfter (some range.stop) front := by
  rw [stopAfter, stopAfter, List.getLast?_cons]
  cases front.getLast? <;> rfl

lemma checkBatch_cons : checkBatch f lastPrefix lastStop (range :: batch) =
    (checkRange f lastPrefix lastStop range >>= fun _ =>
      checkBatch f lastPrefix (some range.stop) batch) := by
  rw [checkBatch]
  cases checkRange f lastPrefix lastStop range <;> rfl

/-- The second part of a batch is checked after the last range of the first. -/
lemma checkBatch_append : checkBatch f lastPrefix lastStop (front ++ back) =
    (checkBatch f lastPrefix lastStop front >>= fun _ =>
      checkBatch f lastPrefix (stopAfter lastStop front) back) := by
  induction front generalizing lastStop with
  | nil => rfl
  | cons range front ih =>
    rw [List.cons_append, checkBatch_cons, checkBatch_cons, bind_assoc, stopAfter_cons]
    simp only [ih]

/-- A batch passes the checks exactly if each range does after those before it. -/
lemma checkBatch_eq_ok_iff_forall : checkBatch f lastPrefix lastStop batch = .ok () ↔
    ∀ front range back, batch = front ++ range :: back →
      checkRange f lastPrefix (stopAfter lastStop front) range = .ok () := by
  constructor
  · rintro h front range back rfl
    rw [checkBatch_append] at h
    obtain ⟨-, -, h⟩ := bind_eq_ok.1 h
    rw [checkBatch_cons] at h
    obtain ⟨⟨⟩, h, -⟩ := bind_eq_ok.1 h
    exact h
  · intro h
    induction batch generalizing lastStop with
    | nil => rfl
    | cons range batch ih =>
      rw [checkBatch_cons, bind_eq_ok]
      refine ⟨(), h [] range batch rfl, ih fun front r back hb => ?_⟩
      rw [← stopAfter_cons]
      exact h (range :: front) r back (by rw [hb]; rfl)

/-- A batch is refused for its first range that does not pass. -/
lemma exists_of_checkBatch_eq_error (h : checkBatch f lastPrefix lastStop batch = .error e) :
    ∃ front range back, batch = front ++ range :: back ∧
      checkBatch f lastPrefix lastStop front = .ok () ∧
      checkRange f lastPrefix (stopAfter lastStop front) range = .error e := by
  induction batch generalizing lastStop with
  | nil => exact absurd h (by simp [checkBatch])
  | cons range batch ih =>
    rw [checkBatch_cons] at h
    cases hr : checkRange f lastPrefix lastStop range with
    | error e' =>
      rw [hr] at h
      obtain rfl : e' = e := Except.error.inj h
      exact ⟨[], range, batch, rfl, rfl, hr⟩
    | ok u =>
      rw [hr] at h
      obtain ⟨front, r, back, rfl, hfront, hr'⟩ := ih h
      refine ⟨range :: front, r, back, rfl, ?_, by rwa [stopAfter_cons]⟩
      rw [checkBatch_cons, hr]
      exact hfront

end RangeBuilder

end CellIndex
