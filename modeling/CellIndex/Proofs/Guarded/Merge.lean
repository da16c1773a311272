import CellIndex.Proofs.Guarded.Basic
import CellIndex.Proofs.Merge.Region

/-!
# Merging in guarded steps

Merging moves bits between ids and positions, adds up the cells of spans, and cuts spans at the
multiples of the size of a prefix.  Every position that it comes by belongs to a cell of the level,
or is the one behind the last of them, and so has fewer bits than an id has for it; and a length
has at most 63 bits.  So nothing is lost where positions are made into ids, and no sum or product
leaves its word (`mergeCells_eq`).

Each turn of the loop that cuts a span has to end behind the position where it has begun, and not
behind the span; a turn that does not is a step that does not go well, like a sum that leaves its
word.
-/

namespace CellIndex.Guarded

variable {f : Format} {entry : CellEntry} {id : CellId} {last : Span} {spans : List Span}
  {p start stop : Nat}

/-! ## The sizes of a format -/

lemma positionCount_le (f : Format) : f.positionCount ≤ 2 ^ 63 :=
  Nat.pow_le_pow_right (by decide) f.dataBits_le

lemma suffixBits_lt (f : Format) : f.suffixBits < 64 := by
  have hbits := f.bits_eq
  omega

lemma lengthBits_lt (f : Format) : f.lengthBits < 64 := by
  have hrecord := f.valid.recordBits_le
  have hsuffix : 0 < f.suffixBits := f.valid.suffixBits_pos
  rw [Format.lengthBits]
  omega

lemma maxLength_lt (f : Format) : f.maxLength < 2 ^ 63 := by
  have hpos := Nat.two_pow_pos f.lengthBits
  have hpow : 2 ^ f.lengthBits ≤ 2 ^ 63 :=
    Nat.pow_le_pow_right (by decide) (Nat.le_of_lt_succ (lengthBits_lt f))
  rw [Format.maxLength]
  omega

/-- The prefix of a position ends at the last position or before. -/
lemma prefixEnd_le (h : p < f.positionCount) : Span.prefixEnd f p ≤ f.positionCount := by
  have hsplit : f.positionCount = 2 ^ f.prefixBits * 2 ^ f.suffixBits := by
    rw [Format.positionCount, Format.dataBits, Nat.pow_add]
  rw [hsplit] at h ⊢
  exact Nat.mul_le_mul_right _ (Nat.div_lt_of_lt_mul (by rwa [Nat.mul_comm]))

/-- The number of positions of a prefix. -/
def tableSize (f : Format) : Guarded Nat := do
  let most ← largest f.suffixBits
  sum 64 most 1

/-- The largest length that a record can say. -/
def longest (f : Format) : Guarded Nat := do
  let bits ← difference f.params.recordBits.toNat f.suffixBits
  largest bits

lemma tableSize_eq (f : Format) : tableSize f = pure (2 ^ f.suffixBits) := by
  have hword := Nat.pow_lt_pow_right (a := 2) (by decide) (suffixBits_lt f)
  have hpos := Nat.two_pow_pos f.suffixBits
  rw [tableSize, largest_eq (suffixBits_lt f), pure_bind, sum_eq (by omega),
    Nat.sub_add_cancel hpos]

lemma longest_eq (f : Format) : longest f = pure f.maxLength := by
  have hbits : f.suffixBits < f.params.recordBits.toNat := f.valid.recordBits_gt
  rw [longest, difference_eq (Nat.le_of_lt hbits), pure_bind]
  exact largest_eq (lengthBits_lt f)

/-! ## Ids and positions -/

/-- The significant bits of an id. -/
def readPosition (f : Format) (id : CellId) : Guarded Nat := do
  let bits ← sum 32 f.tailBits 1
  shiftRight id.toNat bits

/-- The cell at a position, all of whose bits must have a place in the id. -/
def writePosition (f : Format) (position : Nat) : Guarded CellId := do
  let bits ← sum 32 f.tailBits 1
  let upper ← shiftLeft 64 position bits
  let marker ← shiftLeft 64 1 f.tailBits
  pure (CellId.ofNat (upper ||| marker))

lemma readPosition_eq (f : Format) (id : CellId) : readPosition f id = pure (f.position id) := by
  have hbits := f.bits_eq
  have hlow : 3 ≤ f.prefixBits := f.valid.prefixBits_ge
  rw [readPosition, sum_eq (by omega), pure_bind, shiftRight_eq (by omega), Format.position]

lemma writePosition_eq (h : p < f.positionCount) : writePosition f p = pure (f.cellAt p) := by
  have hbits := f.bits_eq
  have hlow : 3 ≤ f.prefixBits := f.valid.prefixBits_ge
  have hlt : 2 ^ f.tailBits < 2 ^ (f.tailBits + 1) := Nat.pow_lt_pow_right (by decide) (by omega)
  have hmul : p * 2 ^ (f.tailBits + 1) < 2 ^ 64 := by
    rw [← f.positionCount_mul]
    exact Nat.mul_lt_mul_of_pos_right h (Nat.two_pow_pos _)
  have hor : p * 2 ^ (f.tailBits + 1) ||| 2 ^ f.tailBits =
      p * 2 ^ (f.tailBits + 1) + 2 ^ f.tailBits := by
    rw [Nat.mul_comm]
    exact (Nat.two_pow_add_eq_or_of_lt hlt p).symm
  rw [writePosition, sum_eq (by omega), pure_bind, shiftLeft_eq (by omega) hmul, pure_bind,
    shiftLeft_one (by omega), pure_bind, hor, Format.cellAt]

/-! ## Spans -/

/-- The positions that a cell covers. -/
def toSpan (f : Format) (entry : CellEntry) : Guarded Span :=
  if ¬ entry.cell.Valid then returns (.error (.invalidInput (.notACell entry.cell)))
  else if f.level < entry.cell.level then
    returns (.error (.invalidInput (.tooFine entry.cell f.level)))
  else do
    let tail ← product 32 2 (CellId.maxLevel - f.level)
    let marker ← shiftLeft 64 1 tail
    let base ← difference entry.cell.toNat (2 ^ entry.cell.zeros)
    let first ← sum 64 base marker
    let levels ← difference f.level entry.cell.level
    let bits ← product 32 2 levels
    let count ← shiftLeft 64 1 bits
    let start ← readPosition f (CellId.ofNat first)
    let stop ← sum 64 start count
    pure { start, stop, value := Span.keptValue f entry.value }

/-- The span of a cell ends at the last cell of the level or before. -/
lemma stop_le_of_ofCell {s : Span} (h : Span.ofCell f entry = .ok s) : s.stop ≤ f.cellCount := by
  obtain ⟨hv, hl⟩ := Span.valid_of_ofCell h
  rw [Span.ofCell_of_valid hv hl] at h
  rw [← Except.ok.inj h]
  exact Span.ofEntry_stop_le hv hl

lemma start_lt_of_ofCell {s : Span} (h : Span.ofCell f entry = .ok s) :
    s.start < f.positionCount := by
  obtain ⟨hv, hl⟩ := Span.valid_of_ofCell h
  have hstop := stop_le_of_ofCell h
  rw [Span.ofCell_of_valid hv hl] at h
  have hne := Span.ofEntry_nonempty f entry
  rw [Except.ok.inj h] at hne
  exact Nat.lt_trans (Nat.lt_of_lt_of_le hne hstop) f.cellCount_lt

/-- The cells of a span are counted in a word, and its end is a position. -/
lemma toSpan_of_valid (hv : entry.cell.Valid) (hl : entry.cell.level ≤ f.level) :
    toSpan f entry = returns (Span.ofCell f entry) := by
  have hplain : Span.ofCell f entry = .ok
      { start := f.position (CellId.ofNat (entry.cell.toNat - 2 ^ entry.cell.zeros +
          2 ^ (2 * (CellId.maxLevel - f.level))))
        stop := f.position (CellId.ofNat (entry.cell.toNat - 2 ^ entry.cell.zeros +
          2 ^ (2 * (CellId.maxLevel - f.level)))) + 2 ^ (2 * (f.level - entry.cell.level))
        value := Span.keptValue f entry.value } := by
    simp only [Span.ofCell, hv, Nat.not_lt.2 hl, not_true_eq_false, if_false]
    rw [Nat.pow_mul 2 2 (f.level - entry.cell.level)]
    rfl
  have hstop := stop_le_of_ofCell hplain
  simp only at hstop
  have hcount := f.cellCount_lt
  have hword := positionCount_le f
  have hmax : CellId.maxLevel = 30 := rfl
  have hlevel := f.level_le
  have hid := entry.cell.toNat_lt
  have hnum := hv.toNat_eq
  -- the marker of the first descendant is not above that of the cell
  have hmarker : 2 ^ (2 * (CellId.maxLevel - f.level)) ≤ 2 ^ entry.cell.zeros := by
    rw [hmax, ← f.tailBits_eq]
    exact Nat.pow_le_pow_right (by decide) (Format.tailBits_le_zeros hv hl)
  rw [hplain, returns_ok, toSpan, if_neg (not_not.2 hv), if_neg (Nat.not_lt.2 hl),
    product_eq (by omega), pure_bind, shiftLeft_one (by omega), pure_bind,
    difference_eq (by omega), pure_bind, sum_eq (by omega), pure_bind, difference_eq hl,
    pure_bind, product_eq (by omega), pure_bind, shiftLeft_one (by omega), pure_bind,
    readPosition_eq, pure_bind, sum_eq (by omega), pure_bind]

lemma toSpan_eq (f : Format) (entry : CellEntry) :
    toSpan f entry = returns (Span.ofCell f entry) := by
  by_cases hv : entry.cell.Valid
  · by_cases hl : f.level < entry.cell.level
    · simp only [toSpan, Span.ofCell, hv, hl, not_true_eq_false, if_false, if_true]
    · exact toSpan_of_valid hv (Nat.not_lt.1 hl)
  · simp only [toSpan, Span.ofCell, hv, not_false_eq_true, if_true]

/-! ## Joining -/

/-- Joins sorted spans, of which `last` is the first or what has been joined so far. -/
def joinFrom (f : Format) (last : Span) : List Span → Guarded (List Span)
  | [] => pure [last]
  | span :: rest =>
    if span.start < last.stop ∧ span.value ≠ last.value then do
      let cell ← writePosition f span.start
      returns (.error (.invalidInput (.conflict cell span.value last.value)))
    else if span.start ≤ last.stop ∧ span.value = last.value then
      joinFrom f { last with stop := max last.stop span.stop } rest
    else do
      let joined ← joinFrom f span rest
      pure (last :: joined)

/-- Joins sorted spans. -/
def join (f : Format) : List Span → Guarded (List Span)
  | [] => pure []
  | first :: rest => joinFrom f first rest

lemma joinFrom_eq (h : ∀ s ∈ spans, s.start < f.positionCount) :
    joinFrom f last spans = returns (Span.joinFrom f last spans) := by
  induction spans generalizing last with
  | nil => rfl
  | cons s rest ih =>
    have hrest := fun last => @ih last fun t ht => h t (List.mem_cons_of_mem _ ht)
    rw [joinFrom, Span.joinFrom]
    split
    · rw [writePosition_eq (h s List.mem_cons_self)]
      rfl
    · split
      · exact hrest _
      · rw [hrest]
        cases Span.joinFrom f s rest <;> rfl

lemma join_eq (h : ∀ s ∈ spans, s.start < f.positionCount) :
    join f spans = returns (Span.join f spans) := by
  cases spans with
  | nil => rfl
  | cons first rest => exact joinFrom_eq fun s hs => h s (List.mem_cons_of_mem _ hs)

/-- A joined span ends where some span does. -/
lemma stop_le_of_joinFrom {joined : List Span} {n : Nat} (h : ∀ s ∈ last :: spans, s.stop ≤ n)
    (hj : Span.joinFrom f last spans = .ok joined) : ∀ s ∈ joined, s.stop ≤ n := by
  induction spans generalizing last joined with
  | nil =>
    obtain rfl : [last] = joined := Except.ok.inj hj
    exact h
  | cons s rest ih =>
    rw [List.forall_mem_cons, List.forall_mem_cons] at h
    obtain ⟨hlast, hs, hrest⟩ := h
    rw [Span.joinFrom] at hj
    split at hj
    · cases hj
    · split at hj
      · exact ih (List.forall_mem_cons.2 ⟨Nat.max_le.2 ⟨hlast, hs⟩, hrest⟩) hj
      · obtain ⟨joined', hj', rfl⟩ := Sequence.map_eq_ok.1 hj
        exact List.forall_mem_cons.2 ⟨hlast, ih (List.forall_mem_cons.2 ⟨hs, hrest⟩) hj'⟩

lemma stop_le_of_join {joined : List Span} {n : Nat} (h : ∀ s ∈ spans, s.stop ≤ n)
    (hj : Span.join f spans = .ok joined) : ∀ s ∈ joined, s.stop ≤ n := by
  cases spans with
  | nil =>
    obtain rfl : [] = joined := Except.ok.inj hj
    exact h
  | cons first rest => exact stop_le_of_joinFrom h hj

/-! ## Cutting -/

/-- Where the range that begins at `start` has to end, for tables of `size` positions and lengths
up to `most`. -/
def nextCut (size most start stop : Nat) : Guarded Nat := do
  let index ← quotient start size
  let next ← sum 64 index 1
  let prefixEnd ← product 64 next size
  let limit ← sum 64 start most
  pure (min (min stop prefixEnd) limit)

/-- The ranges of a span, from `start` on.  A turn that makes no progress does not go well. -/
def splitFrom (f : Format) (size most : Nat) (value : Option UInt32) (start stop : Nat) :
    Guarded (List CellRange) :=
  if start < stop then
    nextCut size most start stop >>= fun next =>
      if _ : start < next ∧ next ≤ stop then do
        let first ← writePosition f start
        let behind ← writePosition f next
        let rest ← splitFrom f size most value next stop
        pure ({ start := first, stop := behind, value } :: rest)
      else trap
  else pure []
termination_by stop - start
decreasing_by omega

/-- The ranges of a span. -/
def split (f : Format) (span : Span) : Guarded (List CellRange) := do
  let size ← tableSize f
  let most ← longest f
  splitFrom f size most span.value span.start span.stop

/-- A span is cut in words as long as its positions have at most 63 bits: the end of a prefix is
then no position beyond the last, and a length has at most 63 bits as well. -/
lemma nextCut_eq (hlt : start < stop) (hstop : stop ≤ f.cellCount) :
    nextCut (2 ^ f.suffixBits) f.maxLength start stop = pure (Span.cut f start stop) := by
  have hcount := f.cellCount_lt
  have hword := positionCount_le f
  have hlength := maxLength_lt f
  have hend := prefixEnd_le (f := f) (p := start) (by omega)
  have hindex := Nat.div_le_self start (2 ^ f.suffixBits)
  rw [Span.prefixEnd] at hend
  rw [nextCut, quotient_eq (Nat.two_pow_pos _), pure_bind, sum_eq (by omega), pure_bind,
    product_eq (by omega), pure_bind, sum_eq (by omega), pure_bind]
  rfl

/-- Every turn of the loop makes progress, so a span is cut to its end. -/
lemma splitFrom_eq {value : Option UInt32} (hstop : stop ≤ f.cellCount) :
    splitFrom f (2 ^ f.suffixBits) f.maxLength value start stop =
      pure (Span.rangesFrom f value start stop) := by
  have hcount := f.cellCount_lt
  fun_induction Span.rangesFrom f value start stop with
  | case1 start hlt next ih =>
    have hprogress := Span.lt_cut (f := f) hlt
    have hle := Span.cut_le f start stop
    rw [splitFrom, if_pos hlt, nextCut_eq hlt hstop, pure_bind, dif_pos ⟨hprogress, hle⟩,
      writePosition_eq (by omega), pure_bind, writePosition_eq (by omega), pure_bind, ih,
      pure_bind]
  | case2 start hge => rw [splitFrom, if_neg hge]

lemma split_eq {span : Span} (h : span.stop ≤ f.cellCount) :
    split f span = pure (span.ranges f) := by
  rw [split, tableSize_eq, pure_bind, longest_eq, pure_bind, splitFrom_eq h]
  rfl

/-! ## Merging -/

/-- The ranges that the cells of a list cover. -/
def mergeCells (f : Format) (cells : List CellEntry) : Guarded (List CellRange) := do
  let spans ← cells.mapM (toSpan f)
  let joined ← join f (spans.mergeSort Span.le)
  let parts ← joined.mapM (split f)
  pure parts.flatten

/-- No cells make merging leave its words. -/
lemma mergeCells_eq (f : Format) (cells : List CellEntry) :
    mergeCells f cells = returns (CellIndex.mergeCells f cells) := by
  rw [mergeCells, CellIndex.mergeCells, mapM_returns fun entry _ => toSpan_eq f entry]
  cases hspans : cells.mapM (Span.ofCell f) with
  | error e => rfl
  | ok spans =>
    have hcells : ∀ s ∈ spans.mergeSort Span.le, ∃ entry ∈ cells, Span.ofCell f entry = .ok s := by
      intro s hs
      exact Sequence.exists_of_forall₂ (Sequence.mapM_eq_ok_iff.1 hspans).flip
        (List.mem_mergeSort.1 hs)
    have hstart : ∀ s ∈ spans.mergeSort Span.le, s.start < f.positionCount := by
      intro s hs
      obtain ⟨entry, -, hof⟩ := hcells s hs
      exact start_lt_of_ofCell hof
    have hstop : ∀ s ∈ spans.mergeSort Span.le, s.stop ≤ f.cellCount := by
      intro s hs
      obtain ⟨entry, -, hof⟩ := hcells s hs
      exact stop_le_of_ofCell hof
    rw [returns_ok, pure_bind, join_eq hstart]
    show _ = returns (Span.join f (spans.mergeSort Span.le) >>=
      fun joined => pure (joined.flatMap (Span.ranges f)))
    cases hjoined : Span.join f (spans.mergeSort Span.le) with
    | error e => rfl
    | ok joined =>
      have hparts : ∀ s ∈ joined, split f s = pure (s.ranges f) := by
        intro s hs
        exact split_eq (stop_le_of_join hstop hjoined s hs)
      rw [returns_ok, pure_bind, mapM_eq hparts, pure_bind, ← List.flatMap_def]
      rfl

end CellIndex.Guarded
