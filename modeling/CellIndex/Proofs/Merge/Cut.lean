import CellIndex.Proofs.Format.Position
import CellIndex.Proofs.Merge.Join

/-!
# Cutting joined spans

A joined span is cut into pieces, each of which lies inside one prefix and is short enough for a
record.  Pieces are spans again, so what they say together is compared with what the span has said
(`covered_pieces`); the ranges of a span are its pieces with their bounds written as ids
(`ranges_eq_map_toRange`).
-/

namespace CellIndex.Span

variable {f : Format} {s piece : Span} {p : Nat} {v : Option UInt32}

/-- The range between the cells at the bounds of a span. -/
def toRange (f : Format) (s : Span) : CellRange :=
  { start := f.cellAt s.start, stop := f.cellAt s.stop, value := s.value }

/-- The pieces of a span, in order. -/
def pieces (f : Format) (s : Span) : List Span :=
  if s.start < s.stop then
    { s with stop := cut f s.start s.stop } :: pieces f { s with start := cut f s.start s.stop }
  else []
termination_by s.stop - s.start
decreasing_by
  have := lt_cut (f := f) ‹s.start < s.stop›
  omega

/-- What a record can hold: a span inside one prefix that is not too long. -/
structure Fits (f : Format) (s : Span) : Prop where
  nonempty : s.start < s.stop
  inPrefix : s.stop ≤ prefixEnd f s.start
  short : s.stop ≤ s.start + f.maxLength

lemma rangesFrom_eq (f : Format) (v : Option UInt32) (start stop : Nat) :
    rangesFrom f v start stop = (pieces f ⟨start, stop, v⟩).map (toRange f) := by
  fun_induction rangesFrom f v start stop with
  | case1 start hlt next ih =>
    rw [pieces, if_pos hlt, List.map_cons, ← ih]
    rfl
  | case2 start hge => rw [pieces, if_neg hge, List.map_nil]

lemma ranges_eq_map_toRange (f : Format) (s : Span) : s.ranges f = (s.pieces f).map (toRange f) :=
  rangesFrom_eq f s.value s.start s.stop

lemma cut_le (f : Format) (start stop : Nat) : cut f start stop ≤ stop := by
  unfold cut
  omega

/-- The first piece of a span. -/
lemma fits_cut (h : s.start < s.stop) : Fits f { s with stop := cut f s.start s.stop } where
  nonempty := lt_cut h
  inPrefix := by
    simp only [cut]
    omega
  short := by
    simp only [cut]
    omega

lemma pieces_bounds (f : Format) (s : Span) :
    ∀ piece ∈ s.pieces f, s.start ≤ piece.start ∧ piece.stop ≤ s.stop := by
  fun_induction pieces f s with
  | case1 s hlt ih =>
    have h1 := lt_cut (f := f) hlt
    have h2 := cut_le f s.start s.stop
    rintro piece (_ | ⟨_, hp⟩)
    · exact ⟨Nat.le_refl _, h2⟩
    · obtain ⟨hs, ht⟩ := ih piece hp
      simp only at hs ht
      exact ⟨by omega, ht⟩
  | case2 s hge => simp

lemma fits_of_mem_pieces {f : Format} {s : Span} : ∀ piece ∈ s.pieces f, Fits f piece := by
  fun_induction pieces f s with
  | case1 s hlt ih =>
    rintro piece (_ | ⟨_, hp⟩)
    · exact fits_cut hlt
    · exact ih piece hp
  | case2 s hge => simp

lemma pairwise_pieces (f : Format) (s : Span) : (s.pieces f).Pairwise (·.stop ≤ ·.start) := by
  fun_induction pieces f s with
  | case1 s hlt ih => exact List.pairwise_cons.2 ⟨fun t ht => (pieces_bounds f _ t ht).1, ih⟩
  | case2 s hge => exact .nil

/-- The pieces of a span say what the span says. -/
lemma covered_pieces (f : Format) (s : Span) :
    Covered (s.pieces f) p v ↔ s.Contains p ∧ s.value = v := by
  fun_induction pieces f s with
  | case1 s hlt ih =>
    have h1 := lt_cut (f := f) hlt
    have h2 := cut_le f s.start s.stop
    rw [covered_cons, ih, ← or_and_right]
    refine and_congr_left fun _ => ?_
    simp only [Contains]
    omega
  | case2 s hge =>
    simp only [covered_nil, false_iff, Contains, not_and]
    omega

/-! ## The pieces of all joined spans -/

lemma pairwise_flatMap_pieces {spans : List Span} (h : spans.Pairwise Before) :
    (spans.flatMap (pieces f)).Pairwise (·.stop ≤ ·.start) := by
  rw [List.pairwise_flatMap]
  refine ⟨fun s _ => pairwise_pieces f s, h.imp fun {a b} hab x hx y hy => ?_⟩
  exact Nat.le_trans (pieces_bounds f a x hx).2 (Nat.le_trans hab.1 (pieces_bounds f b y hy).1)

lemma covered_flatMap_pieces {spans : List Span} :
    Covered (spans.flatMap (pieces f)) p v ↔ Covered spans p v := by
  induction spans with
  | nil => rfl
  | cons s spans ih => rw [List.flatMap_cons, covered_append, covered_pieces, covered_cons, ih]

end CellIndex.Span
