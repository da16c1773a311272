/-!
# Binary search

`bisect p low high` finds the border between the places where `p` holds and those where it does
not, looking at the middle of what is left in every step.  If `p` holds up to some border and
nowhere after it, the border is the answer (`bisect_eq`).
-/

namespace CellIndex.Search

/-- The border of `p` between `low` and `high`: the places below the answer are taken to fulfil
`p`, those from it on not to. -/
def bisect (p : Nat → Bool) (low high : Nat) : Nat :=
  if h : low < high then
    let middle := low + (high - low) / 2
    if p middle then bisect p (middle + 1) high else bisect p low middle
  else low
termination_by high - low

theorem bisect_bounds (p : Nat → Bool) {low high : Nat} (h : low ≤ high) :
    low ≤ bisect p low high ∧ bisect p low high ≤ high := by
  fun_induction bisect p low high with
  | case1 low high hlt middle hp ih => omega
  | case2 low high hlt middle hp ih => omega
  | case3 low high hge => omega

/-- Below the border that a search finds lies a place that it has seen `p` hold at, unless the
border is where the search began. -/
theorem bisect_pred (p : Nat → Bool) {low high : Nat} (h : low < bisect p low high) :
    p (bisect p low high - 1) = true := by
  fun_induction bisect p low high with
  | case1 low high hlt middle hp ih =>
    have hb := bisect_bounds p (show middle + 1 ≤ high by omega)
    by_cases he : middle + 1 = bisect p (middle + 1) high
    · rw [← he]
      simpa using hp
    · exact ih (by omega)
  | case2 low high hlt middle hp ih => exact ih h
  | case3 low high hge => omega

/-- A border is found. -/
theorem bisect_eq (p : Nat → Bool) {low high border : Nat} (hl : low ≤ border) (hh : border ≤ high)
    (hp : ∀ i, low ≤ i → i < high → (p i = true ↔ i < border)) : bisect p low high = border := by
  fun_induction bisect p low high with
  | case1 low high hlt middle h ih =>
    have := (hp middle (by omega) (by omega)).1 h
    exact ih (by omega) hh fun i hi hi' => hp i (by omega) hi'
  | case2 low high hlt middle h ih =>
    have : ¬ middle < border := fun hb => h ((hp middle (by omega) (by omega)).2 hb)
    exact ih hl (by omega) fun i hi hi' => hp i hi (by omega)
  | case3 low high hge => omega

end CellIndex.Search
