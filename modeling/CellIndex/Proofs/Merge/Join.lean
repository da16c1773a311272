import CellIndex.Merge
import Mathlib.Tactic.Common

/-!
# Joining sorted spans

What a list of spans says is its partial map from positions to values, `Covered`.  The sweep over
sorted spans compares every span with the last joined one only.  This is enough: all spans that were
joined before end where the last joined one begins, or earlier, and the last joined one is exactly
what its spans cover, since they overlap or touch one after the other.

So the sweep fails exactly if two spans say different things about a position
(`exists_conflict_of_join`, `not_conflict_of_join`).  If it succeeds, the joined spans say what the
spans have said, in order and apart from each other (`joined_of_join`).
-/

namespace CellIndex.Span

variable {f : Format} {a b s last : Span} {p : Nat} {v : Option UInt32}

/-- The span covers a position. -/
def Contains (s : Span) (p : Nat) : Prop := s.start ≤ p ∧ p < s.stop

/-- A span covers the position, and it has the value. -/
def Covered (spans : List Span) (p : Nat) (v : Option UInt32) : Prop :=
  ∃ s ∈ spans, s.Contains p ∧ s.value = v

/-- Two spans cover a position with different values. -/
def Conflict (a b : Span) : Prop := (∃ p, a.Contains p ∧ b.Contains p) ∧ a.value ≠ b.value

/-- There is a gap between two spans, or they touch and have different values. -/
def Before (a b : Span) : Prop := a.stop ≤ b.start ∧ (a.stop = b.start → a.value ≠ b.value)

/-! ## Coverage -/

@[simp] lemma covered_nil : ¬ Covered [] p v := by
  rintro ⟨s, h, -⟩
  exact absurd h List.not_mem_nil

@[simp] lemma covered_cons {rest : List Span} :
    Covered (s :: rest) p v ↔ (s.Contains p ∧ s.value = v) ∨ Covered rest p v := by
  simp only [Covered, List.mem_cons, exists_eq_or_imp]

lemma covered_append {xs ys : List Span} :
    Covered (xs ++ ys) p v ↔ Covered xs p v ∨ Covered ys p v := by
  simp only [Covered, List.mem_append, or_and_right, exists_or]

lemma covered_congr {xs ys : List Span} (h : ∀ s, s ∈ xs ↔ s ∈ ys) :
    Covered xs p v ↔ Covered ys p v := by
  simp only [Covered, h]

/-- What two spans with the same value cover together, if the second begins where the first ends or
earlier. -/
lemma covered_extend {rest : List Span} (hs : last.start ≤ s.start) (ht : s.start ≤ last.stop)
    (hv : s.value = last.value) :
    Covered ({ last with stop := max last.stop s.stop } :: rest) p v ↔
      Covered (last :: s :: rest) p v := by
  simp only [covered_cons, Contains, ← or_assoc]
  refine or_congr_left ?_
  constructor
  · rintro ⟨⟨h1, h2⟩, h3⟩
    by_cases hp : p < last.stop
    · exact Or.inl ⟨⟨h1, hp⟩, h3⟩
    · exact Or.inr ⟨⟨by omega, by omega⟩, hv.trans h3⟩
  · rintro (⟨⟨h1, h2⟩, h3⟩ | ⟨⟨h1, h2⟩, h3⟩)
    · exact ⟨⟨h1, by omega⟩, h3⟩
    · exact ⟨⟨by omega, by omega⟩, hv.symm.trans h3⟩

/-- Spans that are apart from each other do not share a position. -/
lemma eq_of_contains {spans : List Span} (h : spans.Pairwise Before) (ha : a ∈ spans)
    (hb : b ∈ spans) (hpa : a.Contains p) (hpb : b.Contains p) : a = b := by
  induction h with
  | nil => exact absurd ha List.not_mem_nil
  | @cons s rest hs _ ih =>
    have hapart : ∀ t ∈ rest, s.Contains p → ¬ t.Contains p := by
      intro t ht hsp htp
      have hle := (hs t ht).1
      have hlt := hsp.2
      have hge := htp.1
      omega
    rcases List.mem_cons.1 ha with hsa | ha <;> rcases List.mem_cons.1 hb with hsb | hb
    · rw [hsa, hsb]
    · exact absurd hpb (hapart b hb (hsa ▸ hpa))
    · exact absurd hpa (hapart a ha (hsb ▸ hpb))
    · exact ih ha hb

lemma covered_unique {spans : List Span} {w : Option UInt32} (h : spans.Pairwise Before)
    (hv : Covered spans p v) (hw : Covered spans p w) : v = w := by
  obtain ⟨a, ha, hpa, rfl⟩ := hv
  obtain ⟨b, hb, hpb, rfl⟩ := hw
  rw [eq_of_contains h ha hb hpa hpb]

/-! ## The sweep succeeds -/

/-- What the sweep makes of spans that begin at `start` or later: spans that stand apart and say the
same. -/
structure JoinedFrom (start : Nat) (spans joined : List Span) : Prop where
  pairwise : joined.Pairwise Before
  start_le : ∀ s ∈ joined, start ≤ s.start
  nonempty : ∀ s ∈ joined, s.start < s.stop
  covered : ∀ p v, Covered joined p v ↔ Covered spans p v

/-- A span that ends before all others begin is apart from what the others are joined to. -/
lemma JoinedFrom.before {rest joined : List Span} (h : JoinedFrom s.start (s :: rest) joined)
    (hs : s.start < s.stop) (hle : last.stop ≤ s.start)
    (hv : s.start = last.stop → s.value ≠ last.value) : ∀ t ∈ joined, Before last t := by
  intro t ht
  have hst := h.start_le t ht
  refine ⟨Nat.le_trans hle hst, fun htouch hlt => ?_⟩
  -- a joined span that touches `last` begins where `s` does, so it has the value of `s`
  have hstart : t.start = s.start := by omega
  have hcs : Covered joined s.start s.value :=
    (h.covered _ _).2 ⟨s, List.mem_cons_self, ⟨Nat.le_refl _, hs⟩, rfl⟩
  have hct : Covered joined s.start t.value :=
    ⟨t, ht, ⟨Nat.le_of_eq hstart, hstart ▸ h.nonempty t ht⟩, rfl⟩
  exact hv (by omega) ((covered_unique h.pairwise hcs hct).trans hlt.symm)

lemma not_conflict_of_joinFrom {rest joined : List Span}
    (h : joinFrom f last (s :: rest) = .ok joined) :
    ¬ (s.start < last.stop ∧ s.value ≠ last.value) := by
  intro hc
  rw [joinFrom, if_pos hc] at h
  exact absurd h (by simp)

/-- The sweep from the last joined span on, if it succeeds.  The induction is on the spans that are
still to come; what has been joined before never matters again. -/
lemma joinedFrom_of_joinFrom {rest joined : List Span} (hlast : last.start < last.stop)
    (hne : ∀ s ∈ rest, s.start < s.stop) (hsorted : (last :: rest).Pairwise (·.start ≤ ·.start))
    (h : joinFrom f last rest = .ok joined) : JoinedFrom last.start (last :: rest) joined := by
  induction rest generalizing last joined with
  | nil =>
    obtain rfl : [last] = joined := by simpa [joinFrom] using h
    exact ⟨by simp, by simp, by simpa using hlast, fun p v => Iff.rfl⟩
  | cons s rest ih =>
    have hconflict := not_conflict_of_joinFrom h
    obtain ⟨hle, htail⟩ := List.pairwise_cons.1 hsorted
    have hstart := hle s List.mem_cons_self
    have hne' : ∀ t ∈ rest, t.start < t.stop := fun t ht => hne t (List.mem_cons_of_mem _ ht)
    rw [joinFrom, if_neg hconflict] at h
    split at h
    · next htouch =>
      -- `s` disappears in the last joined span, which grows if `s` reaches further
      have hgrown : last.start < max last.stop s.stop := by omega
      have hrest := @ih { last with stop := max last.stop s.stop } _ hgrown hne'
        (List.pairwise_cons.2
          ⟨fun t ht => hle t (List.mem_cons_of_mem _ ht), (List.pairwise_cons.1 htail).2⟩) h
      refine ⟨hrest.pairwise, hrest.start_le, hrest.nonempty, fun p v => ?_⟩
      rw [hrest.covered]
      exact covered_extend hstart htouch.1 htouch.2
    · next hapart =>
      -- `last` is finished, since everything from `s` on begins at its end or later
      obtain ⟨joined', hj, rfl⟩ : ∃ j, joinFrom f s rest = .ok j ∧ last :: j = joined := by
        cases hj : joinFrom f s rest with
        | error e => simp [hj, Except.map] at h
        | ok j => exact ⟨j, rfl, by simpa [hj, Except.map] using h⟩
      have hrest := ih (hne s List.mem_cons_self) hne' htail hj
      have hstop : last.stop ≤ s.start := by
        by_contra hlt
        exact hconflict ⟨by omega, fun hv => hapart ⟨by omega, hv⟩⟩
      have hbefore := hrest.before (hne s List.mem_cons_self) hstop
        fun ht hv => hapart ⟨by omega, hv⟩
      refine ⟨List.pairwise_cons.2 ⟨hbefore, hrest.pairwise⟩, ?_, ?_, fun p v => ?_⟩
      · rintro t (_ | ⟨_, ht⟩)
        · exact Nat.le_refl _
        · exact Nat.le_trans hstart (hrest.start_le t ht)
      · rintro t (_ | ⟨_, ht⟩)
        · exact hlast
        · exact hrest.nonempty t ht
      · rw [covered_cons, hrest.covered, ← covered_cons]

/-! ## The sweep fails -/

/-- What is in conflict with a grown span is in conflict with one of the spans that it has grown
from. -/
lemma conflict_extend (ht : s.start ≤ last.stop) (hv : s.value = last.value)
    (h : Conflict { last with stop := max last.stop s.stop } b) :
    Conflict last b ∨ Conflict s b := by
  obtain ⟨⟨p, ⟨h1, h2⟩, hb⟩, hne⟩ := h
  by_cases hp : p < last.stop
  · exact Or.inl ⟨⟨p, ⟨h1, hp⟩, hb⟩, hne⟩
  · refine Or.inr ⟨⟨p, ⟨by omega, ?_⟩, hb⟩, fun he => hne (hv.symm.trans he)⟩
    simp only at h2
    omega

/-- The sweep from the last joined span on, if it fails. -/
lemma exists_conflict_of_joinFrom {rest : List Span} {e : Error}
    (hne : ∀ s ∈ rest, s.start < s.stop) (hsorted : (last :: rest).Pairwise (·.start ≤ ·.start))
    (h : joinFrom f last rest = .error e) :
    (∃ fault, e = .invalidInput fault) ∧ ∃ a ∈ last :: rest, ∃ b ∈ rest, Conflict a b := by
  induction rest generalizing last with
  | nil => simp [joinFrom] at h
  | cons s rest ih =>
    obtain ⟨hle, htail⟩ := List.pairwise_cons.1 hsorted
    have hs := hne s List.mem_cons_self
    have hne' : ∀ t ∈ rest, t.start < t.stop := fun t ht => hne t (List.mem_cons_of_mem _ ht)
    rw [joinFrom] at h
    split at h
    · next hc =>
      refine ⟨⟨_, (Except.error.inj h).symm⟩, last, by simp, s, by simp, ?_, hc.2.symm⟩
      exact ⟨s.start, ⟨hle s List.mem_cons_self, hc.1⟩, Nat.le_refl _, hs⟩
    · split at h
      · next htouch =>
        obtain ⟨he, a, ha, b, hb, hconf⟩ := @ih { last with stop := max last.stop s.stop } hne'
          (List.pairwise_cons.2
            ⟨fun t ht => hle t (List.mem_cons_of_mem _ ht), (List.pairwise_cons.1 htail).2⟩) h
        refine ⟨he, ?_⟩
        rcases List.mem_cons.1 ha with rfl | ha
        · rcases conflict_extend htouch.1 htouch.2 hconf with hl | hs
          · exact ⟨last, by simp, b, by simp [hb], hl⟩
          · exact ⟨s, by simp, b, by simp [hb], hs⟩
        · exact ⟨a, by simp [ha], b, by simp [hb], hconf⟩
      · cases hj : joinFrom f s rest with
        | ok j => simp [hj, Except.map] at h
        | error e' =>
          obtain rfl : e' = e := by simpa [hj, Except.map] using h
          obtain ⟨he, a, ha, b, hb, hconf⟩ := ih hne' htail hj
          exact ⟨he, a, List.mem_cons_of_mem _ ha, b, List.mem_cons_of_mem _ hb, hconf⟩

/-! ## Sorting and joining -/

lemma start_le_of_le (h : le a b = true) : a.start ≤ b.start := by
  simp only [le, Bool.or_eq_true, Bool.and_eq_true, decide_eq_true_eq, beq_iff_eq] at h
  omega

lemma pairwise_mergeSort_le (spans : List Span) :
    (spans.mergeSort le).Pairwise (·.start ≤ ·.start) := by
  refine (@List.pairwise_mergeSort _ le ?_ ?_ spans).imp start_le_of_le
  · intro a b c hab hbc
    simp only [le, Bool.or_eq_true, Bool.and_eq_true, decide_eq_true_eq, beq_iff_eq] at *
    omega
  · intro a b
    simp only [le, Bool.or_eq_true, Bool.and_eq_true, decide_eq_true_eq, beq_iff_eq]
    omega

/-- Sorted spans are joined to spans that are in order, apart from each other and not empty, and
that say the same. -/
lemma joined_of_sorted {sorted joined : List Span} (hne : ∀ s ∈ sorted, s.start < s.stop)
    (hsorted : sorted.Pairwise (·.start ≤ ·.start)) (h : join f sorted = .ok joined) :
    joined.Pairwise Before ∧ (∀ s ∈ joined, s.start < s.stop) ∧
      ∀ p v, Covered joined p v ↔ Covered sorted p v := by
  cases sorted with
  | nil =>
    obtain rfl : [] = joined := by simpa [join] using h
    exact ⟨.nil, by simp, fun p v => Iff.rfl⟩
  | cons first rest =>
    have hj := joinedFrom_of_joinFrom (hne first List.mem_cons_self)
      (fun s hs => hne s (List.mem_cons_of_mem _ hs)) hsorted h
    exact ⟨hj.pairwise, hj.nonempty, hj.covered⟩

/-- Sorted spans cannot be joined only if two of them are in conflict. -/
lemma exists_conflict_of_sorted {sorted : List Span} {e : Error}
    (hne : ∀ s ∈ sorted, s.start < s.stop) (hsorted : sorted.Pairwise (·.start ≤ ·.start))
    (h : join f sorted = .error e) :
    (∃ fault, e = .invalidInput fault) ∧ ∃ a ∈ sorted, ∃ b ∈ sorted, Conflict a b := by
  cases sorted with
  | nil => simp [join] at h
  | cons first rest =>
    obtain ⟨he, a, ha, b, hb, hconf⟩ := exists_conflict_of_joinFrom
      (fun s hs => hne s (List.mem_cons_of_mem _ hs)) hsorted h
    exact ⟨he, a, ha, b, List.mem_cons_of_mem _ hb, hconf⟩

/-- Spans are joined successfully to spans that are in order, apart from each other and not empty,
and that say the same. -/
lemma joined_of_join {spans joined : List Span} (hne : ∀ s ∈ spans, s.start < s.stop)
    (h : join f (spans.mergeSort le) = .ok joined) :
    joined.Pairwise Before ∧ (∀ s ∈ joined, s.start < s.stop) ∧
      ∀ p v, Covered joined p v ↔ Covered spans p v := by
  obtain ⟨hp, hn, hcov⟩ := joined_of_sorted
    (fun s hs => hne s (List.mem_mergeSort.1 hs)) (pairwise_mergeSort_le spans) h
  exact ⟨hp, hn, fun p v => (hcov p v).trans (covered_congr fun s => List.mem_mergeSort)⟩

/-- Joining fails only if two spans are in conflict. -/
lemma exists_conflict_of_join {spans : List Span} {e : Error}
    (hne : ∀ s ∈ spans, s.start < s.stop) (h : join f (spans.mergeSort le) = .error e) :
    (∃ fault, e = .invalidInput fault) ∧ ∃ a ∈ spans, ∃ b ∈ spans, Conflict a b := by
  obtain ⟨he, a, ha, b, hb, hconf⟩ := exists_conflict_of_sorted
    (fun s hs => hne s (List.mem_mergeSort.1 hs)) (pairwise_mergeSort_le spans) h
  exact ⟨he, a, List.mem_mergeSort.1 ha, b, List.mem_mergeSort.1 hb, hconf⟩

/-- What is said by spans that are apart from each other is said without conflict. -/
lemma not_conflict_of_covered {spans joined : List Span} (hp : joined.Pairwise Before)
    (hcov : ∀ p v, Covered joined p v ↔ Covered spans p v) (ha : a ∈ spans) (hb : b ∈ spans) :
    ¬ Conflict a b := by
  rintro ⟨⟨p, hpa, hpb⟩, hv⟩
  exact hv (covered_unique hp ((hcov p _).2 ⟨a, ha, hpa, rfl⟩) ((hcov p _).2 ⟨b, hb, hpb, rfl⟩))

/-- Spans that are in conflict cannot be joined. -/
lemma not_conflict_of_join {spans joined : List Span} (hne : ∀ s ∈ spans, s.start < s.stop)
    (h : join f (spans.mergeSort le) = .ok joined) (ha : a ∈ spans) (hb : b ∈ spans) :
    ¬ Conflict a b := by
  obtain ⟨hp, -, hcov⟩ := joined_of_join hne h
  exact not_conflict_of_covered hp hcov ha hb

end CellIndex.Span
