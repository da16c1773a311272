import CellIndex.Proofs.Format.Storable
import CellIndex.Proofs.Sequence
import CellIndex.RangeFile.Builder

/-!
# The rules for ranges that are added

A range passes the checks exactly if it fits a suffix table, begins no earlier than the range before
it ends, and begins with a prefix that has not been written (`checkRange_eq_ok_iff`).  A batch
passes them exactly if all its ranges do, in which case they stand in order
(`checkBatch_eq_ok_iff`).
-/

namespace CellIndex.RangeBuilder

open Sequence

variable {f : Format} {lastPrefix : Option UInt32} {lastStop : Option CellId} {range : CellRange}
  {batch : List CellRange}

/-- What a range has to come after: the end of the range before it and the last prefix written. -/
def Follows (f : Format) (lastPrefix : Option UInt32) (lastStop : Option CellId)
    (range : CellRange) : Prop :=
  (∀ stop ∈ lastStop, stop ≤ range.start) ∧
    ∀ tablePrefix ∈ lastPrefix, tablePrefix < f.prefixOf range.start

lemma not_any_start_lt : lastStop.any (range.start < ·) = false ↔
    ∀ stop ∈ lastStop, stop ≤ range.start := by
  cases lastStop with
  | none => simp
  | some stop => simp

lemma not_any_prefix_le {tablePrefix : UInt32} : lastPrefix.any (tablePrefix ≤ ·) = false ↔
    ∀ other ∈ lastPrefix, other < tablePrefix := by
  cases lastPrefix with
  | none => simp
  | some other => simp

/-- The value check, once the format stores values. -/
lemma checkValue_eq_ok_iff :
    (match range.value with
      | none => Except.error (.invalidArgument (.rangeWithoutValue range))
      | some value =>
        if f.maxValue < value.toNat then
          .error (.invalidArgument (.rangeValue range value.toNat f.maxValue))
        else .ok () : Except Error Unit) = .ok () ↔
      ∃ value, range.value = some value ∧ value.toNat ≤ f.maxValue := by
  cases range.value with
  | none => simp
  | some value =>
    by_cases hv : f.maxValue < value.toNat
    · simp [hv, Nat.not_le.2 hv]
    · simp [hv, Nat.not_lt.1 hv]

/-- A range passes the checks exactly if it fits a suffix table and follows what has been
written. -/
theorem checkRange_eq_ok_iff :
    checkRange f lastPrefix lastStop range = .ok () ↔
      range.Storable f ∧ Follows f lastPrefix lastStop range := by
  have hmax := f.maxSuffix_add_one
  simp only [checkRange, ite_error_eq_ok, Bool.not_eq_true, not_any_start_lt, not_any_prefix_le,
    not_or, not_not, not_le, Nat.not_lt, hmax]
  constructor
  · rintro ⟨hempty, ⟨hcell, hbound⟩, hstop, hfresh, htable, hrecord, hvalue⟩
    refine ⟨⟨hempty, hcell, hbound, htable, hrecord, fun hv => ?_⟩, hstop, hfresh⟩
    rw [if_neg hv] at hvalue
    exact checkValue_eq_ok_iff.1 hvalue
  · rintro ⟨hfit, hstop, hfresh⟩
    refine ⟨hfit.start_lt_stop, ⟨hfit.isCell_start, hfit.isBoundary_stop⟩, hstop, hfresh,
      hfit.inTable, hfit.inRecord, ?_⟩
    by_cases hv : f.valueBytes = 0
    · rw [if_pos hv]
    · rw [if_neg hv]
      exact checkValue_eq_ok_iff.2 (hfit.value hv)

/-- A batch whose ranges pass the checks: each fits a suffix table, they stand in order, and all of
them follow what has been written. -/
structure GoodBatch (f : Format) (lastPrefix : Option UInt32) (lastStop : Option CellId)
    (batch : List CellRange) : Prop where
  storable : ∀ range ∈ batch, range.Storable f
  pairwise : batch.Pairwise fun a b => a.stop ≤ b.start
  follows : ∀ range ∈ batch, Follows f lastPrefix lastStop range

lemma GoodBatch.tail (h : GoodBatch f lastPrefix lastStop (range :: batch)) :
    GoodBatch f lastPrefix (some range.stop) batch where
  storable r hr := h.storable r (List.mem_cons_of_mem _ hr)
  pairwise := h.pairwise.of_cons
  follows r hr := by
    refine ⟨?_, (h.follows r (List.mem_cons_of_mem _ hr)).2⟩
    rintro stop ⟨⟩
    exact List.rel_of_pairwise_cons h.pairwise hr

/-- The checks of a batch pass exactly if the batch is good. -/
theorem checkBatch_eq_ok_iff :
    checkBatch f lastPrefix lastStop batch = .ok () ↔ GoodBatch f lastPrefix lastStop batch := by
  induction batch generalizing lastStop with
  | nil => exact ⟨fun _ => ⟨by simp, .nil, by simp⟩, fun _ => rfl⟩
  | cons range batch ih =>
    have hstep : checkBatch f lastPrefix lastStop (range :: batch) = .ok () ↔
        checkRange f lastPrefix lastStop range = .ok () ∧
          checkBatch f lastPrefix (some range.stop) batch = .ok () := by
      rw [checkBatch]
      cases checkRange f lastPrefix lastStop range <;> simp
    rw [hstep, checkRange_eq_ok_iff, ih]
    constructor
    · rintro ⟨⟨hfit, hfollow⟩, hrest⟩
      refine ⟨?_, ?_, ?_⟩
      · rintro r (_ | ⟨_, hr⟩)
        · exact hfit
        · exact hrest.storable r hr
      · exact List.pairwise_cons.2 ⟨fun r hr => (hrest.follows r hr).1 _ rfl, hrest.pairwise⟩
      · rintro r (_ | ⟨_, hr⟩)
        · exact hfollow
        · obtain ⟨hstop, hfresh⟩ := hrest.follows r hr
          refine ⟨fun stop hs => ?_, hfresh⟩
          -- the end before the batch comes before the first range, and that before this one
          have hle : range.start ≤ r.start :=
            le_trans (le_of_lt hfit.start_lt_stop) (hstop range.stop rfl)
          exact le_trans (hfollow.1 stop hs) hle
    · intro h
      exact ⟨⟨h.storable range List.mem_cons_self, h.follows range List.mem_cons_self⟩, h.tail⟩

end CellIndex.RangeBuilder
