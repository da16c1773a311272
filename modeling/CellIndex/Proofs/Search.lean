import CellIndex.Search
import Mathlib.Tactic.Common

/-!
# Searching a list that is split by a predicate

If a predicate holds of the members of a list up to some place and of none after it, the binary
search for that place finds the number of members that it holds of (`bisect_eq_countP`).
-/

namespace CellIndex.Search

variable {α : Type} {xs : List α} {p : α → Bool}

/-- The members that fulfil the predicate stand in front. -/
lemma getElem_iff_lt_countP (h : xs.Pairwise fun a b => p b → p a) {i : Nat} (hi : i < xs.length) :
    p xs[i] = true ↔ i < xs.countP p := by
  induction xs generalizing i with
  | nil => exact absurd hi (Nat.not_lt_zero i)
  | cons a xs ih =>
    obtain ⟨ha, hxs⟩ := List.pairwise_cons.1 h
    by_cases hp : p a = true
    · rw [List.countP_cons_of_pos hp]
      cases i with
      | zero => simpa using hp
      | succ i =>
        rw [List.getElem_cons_succ, ih hxs (Nat.lt_of_succ_lt_succ hi)]
        omega
    · have hnone : ∀ b ∈ xs, ¬ p b = true := fun b hb hpb => hp (ha b hb hpb)
      rw [List.countP_cons_of_neg hp, List.countP_eq_zero.2 hnone]
      cases i with
      | zero => simpa using hp
      | succ i => simpa using hnone _ (List.getElem_mem (Nat.lt_of_succ_lt_succ hi))

/-- A binary search counts the members that fulfil the predicate. -/
lemma bisect_eq_countP (h : xs.Pairwise fun a b => p b → p a) {q : Nat → Bool}
    (hq : ∀ i (hi : i < xs.length), q i = p xs[i]) : bisect q 0 xs.length = xs.countP p := by
  refine bisect_eq q (Nat.zero_le _) List.countP_le_length fun i _ hi => ?_
  rw [hq i hi]
  exact getElem_iff_lt_countP h hi

/-- The predicate holds of the members before a place and not of those after it. -/
lemma countP_append_of {ys : List α} (hx : ∀ a ∈ xs, p a = true) (hy : ∀ a ∈ ys, ¬ p a = true) :
    (xs ++ ys).countP p = xs.length := by
  rw [List.countP_append, List.countP_eq_length.2 hx, List.countP_eq_zero.2 hy, Nat.add_zero]

end CellIndex.Search
