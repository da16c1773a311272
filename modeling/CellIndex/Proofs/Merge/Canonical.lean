import CellIndex.Proofs.Merge.Region

/-!
# Merging depends on the region only

Two lists of spans that stand apart from each other and say the same are equal
(`eq_of_covered_iff`): each span of such a list is a maximal run of positions with one value.  The
joined spans are such a list, so the ranges of a list of cells depend on what the cells say, and on
nothing else: not on their order, nor on how a region is put together from cells, nor on where a
sort leaves spans with equal bounds (**`mergeCells_canonical`**).
-/

namespace CellIndex

open Sequence

variable {f : Format}

namespace Span

variable {a b : Span} {xs ys : List Span} {p : Nat} {v : Option UInt32}

/-! ## Maximal runs -/

/-- No position before the first span is covered. -/
lemma start_le_of_covered (h : (a :: xs).Pairwise Before) (hne : ∀ s ∈ a :: xs, s.start < s.stop)
    (hp : Covered (a :: xs) p v) : a.start ≤ p := by
  obtain ⟨s, hs, hc, -⟩ := hp
  rcases List.mem_cons.1 hs with rfl | hs
  · exact hc.1
  · have hlt := hne a List.mem_cons_self
    have hle := (List.rel_of_pairwise_cons h hs).1
    have hge := hc.1
    omega

lemma covered_start (hne : a.start < a.stop) : Covered (a :: xs) a.start a.value :=
  ⟨a, List.mem_cons_self, ⟨Nat.le_refl _, hne⟩, rfl⟩

/-- The end of the first span is not covered with its value: the span is as long as it can be. -/
lemma not_covered_stop (h : (a :: xs).Pairwise Before) : ¬ Covered (a :: xs) a.stop a.value := by
  rintro ⟨s, hs, hc, hv⟩
  rcases List.mem_cons.1 hs with rfl | hs
  · exact absurd hc.2 (Nat.lt_irrefl _)
  · have hbefore := List.rel_of_pairwise_cons h hs
    exact hbefore.2 (Nat.le_antisymm hbefore.1 hc.1) hv.symm

/-- The first span ends no later than that of another list that says the same and begins alike. -/
lemma stop_le_of_covered_iff (hx : (a :: xs).Pairwise Before) (hstart : a.start = b.start)
    (hvalue : a.value = b.value) (hne : a.start < a.stop)
    (h : ∀ p v, Covered (a :: xs) p v ↔ Covered (b :: ys) p v) : b.stop ≤ a.stop := by
  by_contra hlt
  -- the second span goes on at the end of the first, with the same value
  have hcovered : Covered (b :: ys) a.stop a.value :=
    ⟨b, List.mem_cons_self, ⟨by omega, by omega⟩, hvalue.symm⟩
  exact not_covered_stop hx ((h _ _).2 hcovered)

/-- Lists that say the same begin with the same span. -/
lemma head_eq_of_covered_iff (hx : (a :: xs).Pairwise Before) (hy : (b :: ys).Pairwise Before)
    (hxne : ∀ s ∈ a :: xs, s.start < s.stop) (hyne : ∀ s ∈ b :: ys, s.start < s.stop)
    (h : ∀ p v, Covered (a :: xs) p v ↔ Covered (b :: ys) p v) : a = b := by
  have ha := hxne a List.mem_cons_self
  have hb := hyne b List.mem_cons_self
  have hstart : a.start = b.start :=
    Nat.le_antisymm (start_le_of_covered hx hxne ((h _ _).2 (covered_start hb)))
      (start_le_of_covered hy hyne ((h _ _).1 (covered_start ha)))
  have hvalue : a.value = b.value :=
    covered_unique hy ((h _ _).1 (covered_start ha)) (hstart ▸ covered_start hb)
  have hstop : a.stop = b.stop :=
    Nat.le_antisymm
      (stop_le_of_covered_iff hy hstart.symm hvalue.symm hb fun p v => (h p v).symm)
      (stop_le_of_covered_iff hx hstart hvalue ha h)
  cases a
  cases b
  simp_all

/-- What is covered behind the first span. -/
lemma covered_tail_iff (h : (a :: xs).Pairwise Before) :
    Covered xs p v ↔ a.stop ≤ p ∧ Covered (a :: xs) p v := by
  constructor
  · rintro ⟨s, hs, hc, hv⟩
    have hle := (List.rel_of_pairwise_cons h hs).1
    exact ⟨Nat.le_trans hle hc.1, s, List.mem_cons_of_mem _ hs, hc, hv⟩
  · rintro ⟨hle, hc⟩
    rcases covered_cons.1 hc with ⟨ha, -⟩ | hc
    · exact absurd ha.2 (Nat.not_lt.2 hle)
    · exact hc

/-- Spans that stand apart from each other are determined by what they say. -/
theorem eq_of_covered_iff (hx : xs.Pairwise Before) (hy : ys.Pairwise Before)
    (hxne : ∀ s ∈ xs, s.start < s.stop) (hyne : ∀ s ∈ ys, s.start < s.stop)
    (h : ∀ p v, Covered xs p v ↔ Covered ys p v) : xs = ys := by
  induction xs generalizing ys with
  | nil =>
    cases ys with
    | nil => rfl
    | cons b ys =>
      exact absurd ((h _ _).2 (covered_start (hyne b List.mem_cons_self))) covered_nil
  | cons a xs ih =>
    cases ys with
    | nil => exact absurd ((h _ _).1 (covered_start (hxne a List.mem_cons_self))) covered_nil
    | cons b ys =>
      obtain rfl := head_eq_of_covered_iff hx hy hxne hyne h
      have htail : xs = ys := ih hx.of_cons hy.of_cons
        (fun s hs => hxne s (List.mem_cons_of_mem _ hs))
        (fun s hs => hyne s (List.mem_cons_of_mem _ hs))
        fun p v => by rw [covered_tail_iff hx, covered_tail_iff hy, h]
      rw [htail]

/-! ## Sorting in another order -/

/-- Any sort of the spans leads to the same joined spans, wherever it leaves spans with equal
bounds. -/
lemma join_eq_ok_iff_of_perm {spans sorted joined : List Span}
    (hne : ∀ s ∈ spans, s.start < s.stop) (hperm : sorted.Perm spans)
    (hsorted : sorted.Pairwise (·.start ≤ ·.start)) :
    join f sorted = .ok joined ↔ join f (spans.mergeSort le) = .ok joined := by
  have hne' : ∀ s ∈ sorted, s.start < s.stop := fun s hs => hne s (hperm.mem_iff.1 hs)
  have hmem : ∀ p v, Covered sorted p v ↔ Covered spans p v :=
    fun p v => covered_congr fun s => hperm.mem_iff
  -- two results say what the spans say, so they are equal
  have hunique : ∀ x y, join f sorted = .ok x → join f (spans.mergeSort le) = .ok y → x = y := by
    intro x y hx hy
    obtain ⟨hxp, hxn, hxc⟩ := joined_of_sorted hne' hsorted hx
    obtain ⟨hyp, hyn, hyc⟩ := joined_of_join hne hy
    exact eq_of_covered_iff hxp hyp hxn hyn fun p v =>
      (hxc p v).trans ((hmem p v).trans (hyc p v).symm)
  -- and both fail only on spans that are in conflict
  constructor
  · intro hx
    obtain ⟨hxp, -, hxc⟩ := joined_of_sorted hne' hsorted hx
    cases hy : join f (spans.mergeSort le) with
    | ok y => rw [hunique joined y hx hy]
    | error e =>
      obtain ⟨-, a, ha, b, hb, hconf⟩ := exists_conflict_of_join hne hy
      exact absurd hconf
        (not_conflict_of_covered hxp (fun p v => (hxc p v).trans (hmem p v)) ha hb)
  · intro hy
    cases hx : join f sorted with
    | ok x => rw [hunique x joined hx hy]
    | error e =>
      obtain ⟨-, a, ha, b, hb, hconf⟩ := exists_conflict_of_sorted hne' hsorted hx
      exact absurd hconf
        (not_conflict_of_join hne hy (hperm.mem_iff.1 ha) (hperm.mem_iff.1 hb))

end Span

/-! ## Lists of cells -/

open CellIndex.Span

variable {cells cells' : List CellEntry} {ranges ranges' : List CellRange} {x : CellId}
  {v : Option UInt32}

/-- A list of cells gives a cell a value: the list has the cell or one above it, and the format
keeps the value of that one. -/
def Says (f : Format) (cells : List CellEntry) (x : CellId) (v : Option UInt32) : Prop :=
  ∃ entry ∈ cells, entry.cell.Covers x ∧ keptValue f entry.value = v

/-- Two lists give the same values to the cells of the level. -/
def SameRegion (f : Format) (cells cells' : List CellEntry) : Prop :=
  ∀ x v, f.IsCell x → (Says f cells x v ↔ Says f cells' x v)

lemma says_iff_covered (hfit : CellsFit f cells) (hx : f.IsCell x) :
    Says f cells x v ↔ Covered (cells.map (ofEntry f)) (f.position x) v := by
  simp only [Says, Covered, List.mem_map, exists_exists_and_eq_and]
  refine exists_congr fun entry => and_congr_right fun he => and_congr_left fun _ => ?_
  exact (contains_ofEntry_iff (hfit entry he).1 (hfit entry he).2 hx).symm

/-- Lists give the same values to cells exactly if they cover the same positions. -/
lemma sameRegion_iff_covered (hfit : CellsFit f cells) (hfit' : CellsFit f cells') :
    SameRegion f cells cells' ↔
      ∀ p v, Covered (cells.map (ofEntry f)) p v ↔ Covered (cells'.map (ofEntry f)) p v := by
  constructor
  · intro h p v
    by_cases hp : p < f.cellCount
    · have hx := Format.isCell_cellAt hp
      have hpos := Format.position_cellAt (Nat.lt_trans hp f.cellCount_lt)
      rw [← hpos, ← says_iff_covered hfit hx, ← says_iff_covered hfit' hx]
      exact h _ v hx
    · -- behind the last cell of the level nothing is covered
      have hnone : ∀ {cs : List CellEntry}, CellsFit f cs →
          ¬ Covered (cs.map (ofEntry f)) p v := by
        rintro cs hcs ⟨s, hs, hc, -⟩
        obtain ⟨entry, he, rfl⟩ := List.mem_map.1 hs
        exact hp (Nat.lt_of_lt_of_le hc.2 (ofEntry_stop_le (hcs entry he).1 (hcs entry he).2))
      exact iff_of_false (hnone hfit) (hnone hfit')
  · intro h x v hx
    rw [says_iff_covered hfit hx, says_iff_covered hfit' hx, h]

/-- Lists that say the same are merged to the same ranges. -/
lemma eq_of_sameRegion (h : mergeCells f cells = .ok ranges)
    (h' : mergeCells f cells' = .ok ranges') (hsame : SameRegion f cells cells') :
    ranges = ranges' := by
  obtain ⟨joined, hp, hn, hcov, rfl⟩ := exists_joined_of_mergeCells h
  obtain ⟨joined', hp', hn', hcov', rfl⟩ := exists_joined_of_mergeCells h'
  have hsame' := (sameRegion_iff_covered (cellsFit_of_mergeCells h)
    (cellsFit_of_mergeCells h')).1 hsame
  have heq : joined = joined' := eq_of_covered_iff hp hp' hn hn' fun p v => by
    rw [hcov, hcov', hsame']
  rw [heq]

lemma sameRegion_of_perm (f : Format) (h : cells.Perm cells') : SameRegion f cells cells' := by
  intro x v _
  simp only [Says, h.mem_iff]

lemma cellsFit_congr (h : cells.Perm cells') : CellsFit f cells ↔ CellsFit f cells' := by
  simp only [CellsFit, h.mem_iff]

lemma conflictFree_congr (h : cells.Perm cells') :
    ConflictFree f cells ↔ ConflictFree f cells' := by
  simp only [ConflictFree, h.mem_iff]

/-- A reordered list is merged to the same ranges, or both lists are to blame. -/
lemma mergeCells_perm (h : cells.Perm cells') :
    (∃ ranges, mergeCells f cells = .ok ranges ∧ mergeCells f cells' = .ok ranges) ∨
      ∃ fault fault', mergeCells f cells = .error (.invalidInput fault) ∧
        mergeCells f cells' = .error (.invalidInput fault') := by
  have hiff : (∃ ranges, mergeCells f cells = .ok ranges) ↔
      ∃ ranges, mergeCells f cells' = .ok ranges := by
    rw [mergeCells_isOk_iff, mergeCells_isOk_iff, cellsFit_congr h, conflictFree_congr h]
  cases hm : mergeCells f cells with
  | ok ranges =>
    obtain ⟨ranges', hm'⟩ := hiff.1 ⟨ranges, hm⟩
    obtain rfl := eq_of_sameRegion hm hm' (sameRegion_of_perm f h)
    exact Or.inl ⟨ranges, rfl, hm'⟩
  | error e =>
    obtain ⟨fault, rfl⟩ := invalidInput_of_mergeCells hm
    cases hm' : mergeCells f cells' with
    | ok ranges' =>
      obtain ⟨ranges, hok⟩ := hiff.2 ⟨ranges', hm'⟩
      exact absurd (hm.symm.trans hok) (by simp)
    | error e' =>
      obtain ⟨fault', rfl⟩ := invalidInput_of_mergeCells hm'
      exact Or.inr ⟨fault, fault', rfl, rfl⟩

/-- **Merging is canonical.**  Two lists that are merged and that give the same values to the cells
of the level have the same ranges.  Reordering a list changes neither its ranges nor whether it has
any.  And any sort of the spans by their bounds leads to the same ranges. -/
theorem mergeCells_canonical (f : Format) (cells cells' : List CellEntry) :
    (∀ ranges ranges', mergeCells f cells = .ok ranges → mergeCells f cells' = .ok ranges' →
        SameRegion f cells cells' → ranges = ranges') ∧
      (cells.Perm cells' →
        (∃ ranges, mergeCells f cells = .ok ranges ∧ mergeCells f cells' = .ok ranges) ∨
          ∃ fault fault', mergeCells f cells = .error (.invalidInput fault) ∧
            mergeCells f cells' = .error (.invalidInput fault')) ∧
      ∀ spans sorted ranges, cells.mapM (ofCell f) = .ok spans → sorted.Perm spans →
        (sorted.Pairwise fun a b => le a b = true) →
          ((join f sorted).map (·.flatMap (Span.ranges f)) = .ok ranges ↔
            mergeCells f cells = .ok ranges) := by
  refine ⟨fun _ _ => eq_of_sameRegion, mergeCells_perm, ?_⟩
  intro spans sorted ranges hspans hperm hsorted
  have hfit : CellsFit f cells := fun entry he => by
    obtain ⟨s, -, hs⟩ := exists_of_mapM_eq_ok hspans he
    exact valid_of_ofCell hs
  obtain rfl : cells.map (ofEntry f) = spans :=
    Except.ok.inj ((mapM_ofCell hfit).symm.trans hspans)
  have hstart : sorted.Pairwise (·.start ≤ ·.start) := hsorted.imp start_le_of_le
  rw [mergeCells_eq hfit, map_eq_ok, map_eq_ok]
  refine exists_congr fun joined => and_congr_left fun _ => ?_
  exact join_eq_ok_iff_of_perm (ofEntries_nonempty f cells) hperm hstart

/-- A format of level two whose records hold at most fifteen cells. -/
def quarterFormat : Format where
  params :=
    { level := 2, prefixBits := 3, suffixBits := 4, blockOffset := 1, recordBits := 8
      allowedList := true, valueBytes := 2 }
  valid := Params.fault?_eq_none_iff.1 (by decide)

/-- The first face as one cell. -/
def wholeFace : List CellEntry := [⟨.ofNat 0x1000000000000000, some 7⟩]

/-- The first face as its four children out of order, one of them twice, and a cell below one. -/
def quarteredFace : List CellEntry :=
  [⟨.ofNat 0x1C00000000000000, some 7⟩, ⟨.ofNat 0x0400000000000000, some 7⟩,
    ⟨.ofNat 0x0D00000000000000, some 7⟩, ⟨.ofNat 0x1400000000000000, some 7⟩,
    ⟨.ofNat 0x0C00000000000000, some 7⟩, ⟨.ofNat 0x0400000000000000, some 7⟩]

lemma cellsFit_wholeFace : CellsFit quarterFormat wholeFace := by
  unfold CellsFit
  decide +kernel

lemma cellsFit_quarteredFace : CellsFit quarterFormat quarteredFace := by
  unfold CellsFit
  decide +kernel

lemma sameRegion_quarteredFace : SameRegion quarterFormat wholeFace quarteredFace := by
  have hwhole : wholeFace.map (ofEntry quarterFormat) = [⟨0, 16, some 7⟩] := by decide +kernel
  have hparts : quarteredFace.map (ofEntry quarterFormat) = [⟨12, 16, some 7⟩, ⟨0, 4, some 7⟩,
      ⟨6, 7, some 7⟩, ⟨8, 12, some 7⟩, ⟨4, 8, some 7⟩, ⟨0, 4, some 7⟩] := by decide +kernel
  rw [sameRegion_iff_covered cellsFit_wholeFace cellsFit_quarteredFace, hwhole, hparts]
  intro p v
  simp only [covered_cons, covered_nil, Contains, or_false, ← or_and_right]
  refine and_congr_left fun _ => ?_
  omega

/-- A face and its four children are merged to the same two ranges, also if the children come in
another order. -/
theorem mergeCells_canonical_face :
    ∃ ranges, mergeCells quarterFormat wholeFace = .ok ranges ∧
      mergeCells quarterFormat quarteredFace = .ok ranges ∧
      mergeCells quarterFormat quarteredFace.reverse = .ok ranges ∧ ranges.length = 2 := by
  obtain ⟨-, hperm, -⟩ :=
    mergeCells_canonical quarterFormat quarteredFace quarteredFace.reverse
  obtain ⟨hsame, -, -⟩ := mergeCells_canonical quarterFormat wholeFace quarteredFace
  obtain ⟨-, -, hsort⟩ := mergeCells_canonical quarterFormat quarteredFace wholeFace
  have hwhole : ∃ ranges, mergeCells quarterFormat wholeFace = .ok ranges ∧ ranges.length = 2 :=
    ⟨_, ((mergeCells_canonical quarterFormat wholeFace wholeFace).2.2 [⟨0, 16, some 7⟩]
      [⟨0, 16, some 7⟩] _ (by decide +kernel) (.refl _) (by decide)).1 rfl, by decide +kernel⟩
  -- the spans of the children in the order of their bounds
  have hparts : ∃ ranges, mergeCells quarterFormat quarteredFace = .ok ranges :=
    ⟨_, (hsort _ [⟨0, 4, some 7⟩, ⟨0, 4, some 7⟩, ⟨4, 8, some 7⟩, ⟨6, 7, some 7⟩, ⟨8, 12, some 7⟩,
      ⟨12, 16, some 7⟩] _ (mapM_ofCell cellsFit_quarteredFace) (by decide +kernel)
      (by decide)).1 rfl⟩
  obtain ⟨ranges, hw, hlen⟩ := hwhole
  obtain ⟨ranges', hq⟩ := hparts
  obtain rfl := hsame ranges ranges' hw hq sameRegion_quarteredFace
  refine ⟨ranges, hw, hq, ?_, hlen⟩
  rcases hperm (List.reverse_perm _).symm with ⟨_, hq', hr⟩ | ⟨_, _, hq', -⟩
  · obtain rfl := Except.ok.inj (hq.symm.trans hq')
    exact hr
  · exact absurd (hq.symm.trans hq') (by simp)

end CellIndex
