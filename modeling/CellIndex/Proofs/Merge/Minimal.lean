import CellIndex.Proofs.Merge.Canonical
import Mathlib.Combinatorics.Enumerative.DoubleCounting

/-!
# No list of ranges is shorter

A piece of a joined span reaches as far as the span, its prefix and a record let it.  A range that
could be stored and says nothing but what the cells say is bound by the same three, so if it holds
the first position of a piece it ends with that piece or before (`lt_stop_of_covered`), and holds
the first position of no other piece.  Any list of ranges that says what the cells say needs one
range for each of these positions, and so is no shorter than the list that merging returns
(**`mergeCells_minimal`**).
-/

namespace CellIndex

open CellIndex.Span (Covered ofEntry toRange)

variable {f : Format} {cells : List CellEntry} {ranges others : List CellRange} {range : CellRange}
  {x : CellId} {p : Nat} {v : Option UInt32}

namespace Span

variable {s t piece : Span} {xs : List Span}

/-! ## The greedy cut -/

lemma prefixEnd_mono {q : Nat} (f : Format) (h : p ≤ q) : prefixEnd f p ≤ prefixEnd f q :=
  Nat.mul_le_mul_right _ (Nat.succ_le_succ (Nat.div_le_div_right h))

/-- Every piece ends at the cut behind its start. -/
lemma stop_eq_cut (f : Format) (s : Span) :
    ∀ piece ∈ s.pieces f, piece.stop = cut f piece.start s.stop := by
  fun_induction pieces f s with
  | case1 s hlt ih =>
    rintro piece (_ | ⟨_, hp⟩)
    · rfl
    · exact ih piece hp
  | case2 s hge => simp

/-- A span that stands apart from the others is as long as it can be. -/
lemma not_covered_stop_of_mem (h : xs.Pairwise Before) (hs : s ∈ xs) (hne : s.start < s.stop) :
    ¬ Covered xs s.stop s.value := by
  obtain ⟨front, back, rfl⟩ := List.append_of_mem hs
  obtain ⟨-, hback, hbefore⟩ := List.pairwise_append.1 h
  rw [covered_append]
  rintro (⟨t, ht, hc, -⟩ | hc)
  · -- what stands in front ends where the span begins
    have hle := (hbefore t ht s List.mem_cons_self).1
    have hlt := hc.2
    omega
  · exact not_covered_stop hback hc

/-- A span that could be stored and holds the start of a piece holds nothing behind that piece, as
far as it says what the joined spans say. -/
lemma lt_stop_of_covered (hx : xs.Pairwise Before) (hs : s ∈ xs) (hpiece : piece ∈ s.pieces f)
    (ht : Fits f t) (hstart : t.Contains piece.start) (hp : t.Contains p)
    (htells : ∀ q ≤ p, t.Contains q → Covered xs q t.value) : p < piece.stop := by
  have hne := (fits_of_mem_pieces piece hpiece).nonempty
  have hbounds := pieces_bounds f s piece hpiece
  have hcut := stop_eq_cut f s piece hpiece
  have hinside := prefixEnd_mono f hstart.1
  have hend := ht.inPrefix
  have hshort := ht.short
  obtain ⟨hle, -⟩ := hstart
  obtain ⟨-, hlt⟩ := hp
  by_contra hge
  -- the span is inside the prefix and short, so it can only be the joined span that ends before `p`
  have hstop : s.stop ≤ p := by
    simp only [cut] at hcut
    omega
  have hvalue : t.value = s.value :=
    covered_unique hx (htells piece.start (by omega) ⟨hle, by omega⟩)
      ⟨s, hs, ⟨hbounds.1, by omega⟩, rfl⟩
  have hcovered := htells s.stop hstop ⟨by omega, by omega⟩
  rw [hvalue] at hcovered
  exact not_covered_stop_of_mem hx hs (by omega) hcovered

/-! ## Ranges as spans -/

/-- The positions of a range, with its value. -/
def ofRange (f : Format) (range : CellRange) : Span :=
  { start := f.position range.start, stop := f.position range.stop, value := range.value }

end Span

/-- A range between boundaries of the level that a record could hold, whatever its value: it lies
inside one prefix, and its length is neither zero nor too large. -/
structure CellRange.IsSegment (f : Format) (range : CellRange) : Prop where
  isBoundary_start : f.IsBoundary range.start
  isBoundary_stop : f.IsBoundary range.stop
  inPrefix : f.position range.stop ≤ ((f.prefixOf range.start).toNat + 1) * 2 ^ f.suffixBits
  length_pos : 1 ≤ f.rangeLength range.start range.stop
  short : f.rangeLength range.start range.stop ≤ f.maxLength

lemma CellRange.isSegment_iff (hstart : f.IsBoundary range.start)
    (hstop : f.IsBoundary range.stop) :
    range.IsSegment f ↔ Span.Fits f (Span.ofRange f range) := by
  have hend : Span.prefixEnd f (f.position range.start) =
      ((f.prefixOf range.start).toNat + 1) * 2 ^ f.suffixBits := by
    rw [Format.toNat_prefixOf]
    rfl
  constructor
  · rintro ⟨-, -, hinside, hpos, hshort⟩
    simp only [Format.rangeLength] at hpos hshort
    refine ⟨?_, hend ▸ hinside, ?_⟩
    · simp only [Span.ofRange]
      omega
    · simp only [Span.ofRange]
      omega
  · rintro ⟨hne, hinside, hshort⟩
    simp only [Span.ofRange] at hne hinside hshort
    refine ⟨hstart, hstop, hend ▸ hinside, ?_, ?_⟩
    · simp only [Format.rangeLength]
      omega
    · simp only [Format.rangeLength]
      omega

/-- A way to store what cells say: segments, in any order, that give the cells of the level the
values that the cells give them, and no others. -/
structure Segmentation (f : Format) (cells : List CellEntry) (ranges : List CellRange) : Prop where
  segments : ∀ range ∈ ranges, range.IsSegment f
  same : ∀ x v, f.IsCell x →
    ((∃ range ∈ ranges, range.Contains x ∧ range.value = v) ↔ Says f cells x v)

/-- Segments hold the cells of the level at the positions of their spans. -/
lemma exists_contains_iff_covered (h : ∀ range ∈ ranges, range.IsSegment f) (hx : f.IsCell x) :
    (∃ range ∈ ranges, range.Contains x ∧ range.value = v) ↔
      Covered (ranges.map (Span.ofRange f)) (f.position x) v := by
  simp only [Covered, List.mem_map, exists_exists_and_eq_and]
  refine exists_congr fun range => and_congr_right fun hr => and_congr_left fun _ => ?_
  have hs := h range hr
  exact Format.contains_iff hs.isBoundary_start hs.isBoundary_stop hx.isBoundary

namespace Segmentation

lemma fits (h : Segmentation f cells others) (hr : range ∈ others) :
    Span.Fits f (Span.ofRange f range) :=
  have hs := h.segments range hr
  (CellRange.isSegment_iff hs.isBoundary_start hs.isBoundary_stop).1 hs

/-- The spans of the ranges cover what the cells cover, as far as there are cells of the level. -/
lemma covered_iff (h : Segmentation f cells others) (hfit : CellsFit f cells)
    (hp : p < f.cellCount) :
    Covered (others.map (Span.ofRange f)) p v ↔ Covered (cells.map (ofEntry f)) p v := by
  have hx := Format.isCell_cellAt hp
  rw [← Format.position_cellAt (Nat.lt_trans hp f.cellCount_lt), ← says_iff_covered hfit hx,
    ← h.same _ _ hx, exists_contains_iff_covered h.segments hx]

end Segmentation

/-! ## Counting -/

/-- The merged ranges are themselves a way to store what the cells say. -/
lemma segmentation_of_mergeCells (h : mergeCells f cells = .ok ranges) :
    Segmentation f cells ranges := by
  obtain ⟨pieces, hm, rfl⟩ := merged_of_mergeCells h
  refine ⟨fun range hr => ?_, fun x v hx => hm.exists_range_iff (cellsFit_of_mergeCells h) hx⟩
  obtain ⟨s, hs, rfl⟩ := List.mem_map.1 hr
  rw [CellRange.isSegment_iff (hm.isBoundary_start hs) (hm.isBoundary_stop hs), Span.ofRange,
    hm.position_start hs, hm.position_stop hs]
  exact hm.fits s hs

/-- No range of another list holds the first positions of two pieces. -/
lemma Segmentation.eq_of_contains_starts {joined : List Span} {a b : Span}
    (h : Segmentation f cells others) (hfit : CellsFit f cells) (hj : joined.Pairwise Span.Before)
    (hcov : ∀ p v, Covered joined p v ↔ Covered (cells.map (ofEntry f)) p v)
    (hr : range ∈ others) (ha : a ∈ joined.flatMap (Span.pieces f))
    (hb : b ∈ joined.flatMap (Span.pieces f)) (hra : (Span.ofRange f range).Contains a.start)
    (hrb : (Span.ofRange f range).Contains b.start) : a = b := by
  have hm := merged_of_joined hfit hj hcov
  -- of two pieces, the range ends before the second begins
  have hlt : ∀ c ∈ joined.flatMap (Span.pieces f), ∀ d ∈ joined.flatMap (Span.pieces f),
      (Span.ofRange f range).Contains c.start → (Span.ofRange f range).Contains d.start →
        d.start < c.stop := by
    intro c hc d hd hrc hrd
    obtain ⟨s, hs, hpiece⟩ := List.mem_flatMap.1 hc
    refine Span.lt_stop_of_covered hj hs hpiece (h.fits hr) hrc hrd fun q hq hrq => ?_
    rw [hcov, ← h.covered_iff hfit (Nat.lt_of_le_of_lt hq (hm.start_lt hd))]
    exact ⟨_, List.mem_map_of_mem hr, hrq, rfl⟩
  by_contra hne
  have hsymm : Std.Symm fun s t : Span => s.stop ≤ t.start ∨ t.stop ≤ s.start :=
    ⟨fun _ _ => Or.symm⟩
  have hapart : (joined.flatMap (Span.pieces f)).Pairwise
      fun s t => s.stop ≤ t.start ∨ t.stop ≤ s.start := hm.pairwise.imp Or.inl
  rcases hapart.forall ha hb hne with hle | hle
  · exact absurd (hlt a ha b hb hra hrb) (Nat.not_lt.2 hle)
  · exact absurd (hlt b hb a ha hrb hra) (Nat.not_lt.2 hle)

/-- **Merging returns as few ranges as possible.**  The merged ranges lie between boundaries of the
level, inside their prefixes and within the lengths that a record can hold, and give every cell of
the level the value that the cells give it.  Any other ranges that do, in whatever order, are at
least as many. -/
theorem mergeCells_minimal (h : mergeCells f cells = .ok ranges) :
    Segmentation f cells ranges ∧
      ∀ others, Segmentation f cells others → ranges.length ≤ others.length := by
  refine ⟨segmentation_of_mergeCells h, fun others hothers => ?_⟩
  have hfit := cellsFit_of_mergeCells h
  obtain ⟨joined, hj, -, hcov, rfl⟩ := exists_joined_of_mergeCells h
  have hm := merged_of_joined hfit hj hcov
  have hnodup : (joined.flatMap (Span.pieces f)).Nodup :=
    hm.pairwise.imp_of_mem fun {a b} ha _ hab heq => by
      have hne := (hm.fits a ha).nonempty
      rw [← heq] at hab
      omega
  rw [List.length_map, ← List.toFinset_card_of_nodup hnodup]
  refine le_trans ?_ others.toFinset_card_le
  refine Finset.card_le_card_of_forall_subsingleton
    (fun piece range => (Span.ofRange f range).Contains piece.start) ?_ ?_
  · -- the cell at the first position of a piece has its value from some range of the other list
    intro piece hpiece
    rw [List.mem_toFinset] at hpiece
    obtain ⟨t, ht, hc, -⟩ := (hothers.covered_iff hfit (hm.start_lt hpiece)).2
      ((hm.covered _ _).1 ⟨piece, hpiece, ⟨Nat.le_refl _, (hm.fits piece hpiece).nonempty⟩, rfl⟩)
    obtain ⟨range, hr, rfl⟩ := List.mem_map.1 ht
    exact ⟨range, List.mem_toFinset.2 hr, hc⟩
  · rintro range hr a ⟨ha, hra⟩ b ⟨hb, hrb⟩
    exact hothers.eq_of_contains_starts hfit hj hcov (List.mem_toFinset.1 hr)
      (List.mem_toFinset.1 ha) (List.mem_toFinset.1 hb) hra hrb

/-- The first face as two ranges of eight cells each. -/
def halvedFace : List CellRange :=
  [⟨quarterFormat.cellAt 0, quarterFormat.cellAt 8, some 7⟩,
    ⟨quarterFormat.cellAt 8, quarterFormat.cellAt 16, some 7⟩]

lemma segmentation_halvedFace : Segmentation quarterFormat wholeFace halvedFace := by
  have hwhole : wholeFace.map (ofEntry quarterFormat) = [⟨0, 16, some 7⟩] := by decide +kernel
  have hhalves : halvedFace.map (Span.ofRange quarterFormat) =
      [⟨0, 8, some 7⟩, ⟨8, 16, some 7⟩] := by decide +kernel
  have hsegments : ∀ range ∈ halvedFace, range.IsSegment quarterFormat := by
    rintro range (_ | ⟨_, _ | ⟨_, _ | _⟩⟩)
    · constructor <;> decide +kernel
    · constructor <;> decide +kernel
  refine ⟨hsegments, fun x v hx => ?_⟩
  rw [exists_contains_iff_covered hsegments hx, says_iff_covered cellsFit_wholeFace hx, hwhole,
    hhalves]
  simp only [Span.covered_cons, Span.covered_nil, Span.Contains, or_false, ← or_and_right]
  refine and_congr_left fun _ => ?_
  omega

/-- A face of sixteen cells is stored in two ranges, as it is in halves, and cannot be stored in
one, since a record holds at most fifteen cells. -/
theorem mergeCells_minimal_face :
    (∃ ranges, mergeCells quarterFormat wholeFace = .ok ranges ∧ ranges.length = 2 ∧
        ranges.length ≤ halvedFace.length) ∧
      ∀ range, ¬ Segmentation quarterFormat wholeFace [range] := by
  have hmerge : mergeCells quarterFormat wholeFace =
      .ok [⟨quarterFormat.cellAt 0, quarterFormat.cellAt 15, some 7⟩,
        ⟨quarterFormat.cellAt 15, quarterFormat.cellAt 16, some 7⟩] := by
    rw [mergeCells_eq cellsFit_wholeFace, wholeFace, List.map_singleton, List.mergeSort_singleton]
    decide +kernel
  obtain ⟨-, hminimal⟩ := mergeCells_minimal hmerge
  refine ⟨⟨_, hmerge, rfl, hminimal _ segmentation_halvedFace⟩, fun range hone => ?_⟩
  exact absurd (hminimal [range] hone) (Nat.not_succ_le_self 1)

end CellIndex
