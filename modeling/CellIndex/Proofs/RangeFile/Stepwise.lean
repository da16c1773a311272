import CellIndex.Proofs.RangeFile.Accepting

/-!
# Adding ranges one by one

A batch can also be added while it is read: a range is checked when it comes, it waits together with
the ranges of its prefix before it, and their suffix table is added when a range of another prefix
comes (`addEach`).  The checks then run between the additions, and see a last prefix that moves.
None of it shows: the result is that of checking the whole batch first (**`addEach_eq_add`**).
-/

namespace CellIndex

open Sequence

variable {f : Format} {group batch rest : List CellRange} {range last : CellRange}
  {tablePrefix : UInt32}

/-- A group is cut off what follows it, if that begins with another prefix. -/
lemma IsGroup.groups_append (h : IsGroup f tablePrefix group)
    (hrest : ∀ range ∈ rest.head?, f.prefixOf range.start ≠ tablePrefix) :
    RangeBuilder.groups f (group ++ rest) = group :: RangeBuilder.groups f rest := by
  have hchain : group.IsChain fun a b => f.prefixOf a.start == f.prefixOf b.start := by
    refine List.Pairwise.isChain (List.pairwise_of_forall_mem_list fun a ha b hb => ?_)
    rw [h.prefixOf_eq a ha, h.prefixOf_eq b hb]
    exact beq_self_eq_true _
  rw [RangeBuilder.groups_append fun a ha b hb => ?_, RangeBuilder.groups,
    List.splitBy_of_isChain h.ne_nil hchain]
  · rfl
  · rw [h.prefixOf_eq a (List.mem_of_getLast? ha)]
    exact (hrest b hb).symm

lemma IsGroup.tablePrefix_ofRanges (h : IsGroup f tablePrefix group) :
    (PrefixGroup.ofRanges f group).tablePrefix = tablePrefix := by
  cases group with
  | nil => exact absurd rfl h.ne_nil
  | cons first rest => exact h.prefixOf_eq first List.mem_cons_self

namespace RangeBuilder

variable {b : RangeBuilder} {groups : List PrefixGroup} {lastPrefix lastPrefix' : Option UInt32}
  {stop : Option CellId}

/-- The builder with another end of the last range. -/
def withLastStop (b : RangeBuilder) (stop : Option CellId) : RangeBuilder :=
  { b with lastStop := stop }

/-- A builder in the middle of a batch. -/
structure OpenGroup where
  /-- The builder, which has added the groups before. -/
  builder : RangeBuilder
  /-- The ranges of one prefix whose suffix table has not been added yet. -/
  waiting : List CellRange

namespace OpenGroup

/-- Adds the waiting ranges. -/
def close (s : OpenGroup) : Except Error RangeBuilder := s.builder.addGroup s.waiting

/-- Adds the waiting ranges if a range does not have their prefix. -/
def closeBefore (s : OpenGroup) (range : CellRange) : Except Error OpenGroup :=
  match s.waiting with
  | [] => .ok s
  | first :: _ =>
    if s.builder.format.prefixOf first.start = s.builder.format.prefixOf range.start then .ok s
    else s.close.map fun builder => { builder, waiting := [] }

/-- One range waits more. -/
def wait (s : OpenGroup) (range : CellRange) : OpenGroup where
  builder := s.builder.withLastStop (some range.stop)
  waiting := s.waiting ++ [range]

/-- Checks a range, and lets it wait. -/
def push (s : OpenGroup) (range : CellRange) : Except Error OpenGroup := do
  checkRange s.builder.format s.builder.lastPrefix s.builder.lastStop range
  let s ← s.closeBefore range
  return s.wait range

end OpenGroup

/-- Adds ranges one by one. -/
def addEach (b : RangeBuilder) (ranges : List CellRange) : Except Error RangeBuilder :=
  ranges.foldlM OpenGroup.push ⟨b, []⟩ >>= OpenGroup.close

/-- The shared data of successive ranges of one prefix never has more bytes than a word can say. -/
def RunsFit (f : Format) (batch : List CellRange) : Prop :=
  ∀ run, run <:+: batch → ∀ p, (∀ range ∈ run, f.prefixOf range.start = p) →
    ∀ shared, SharedData.encode f p (EncodedTable.valuesOf run) = .ok shared →
      shared.length < 2 ^ 32

lemma RunsFit.mono {part : List CellRange} (h : RunsFit f batch) (hpart : part <:+: batch) :
    RunsFit f part :=
  fun run hrun => h run (hrun.trans hpart)

/-! ## What the checks see -/

/-- Behind a range of a later prefix, it does not matter which prefix has been written last. -/
lemma checkRange_congr (hlast : last.Storable f)
    (hp : ∀ p ∈ lastPrefix, p < f.prefixOf last.start)
    (hp' : ∀ p ∈ lastPrefix', p < f.prefixOf last.start) :
    checkRange f lastPrefix (some last.stop) range =
      checkRange f lastPrefix' (some last.stop) range := by
  by_cases hcell : f.IsCell range.start
  · by_cases hstop : last.stop ≤ range.start
    · have hle := hlast.prefixOf_le hcell.isBoundary hstop
      have hnot : lastPrefix.any (f.prefixOf range.start ≤ ·) = false :=
        not_any_prefix_le.2 fun p hmem => UInt32.lt_of_lt_of_le (hp p hmem) hle
      have hnot' : lastPrefix'.any (f.prefixOf range.start ≤ ·) = false :=
        not_any_prefix_le.2 fun p hmem => UInt32.lt_of_lt_of_le (hp' p hmem) hle
      simp only [checkRange, hnot, hnot']
    · -- the range is refused as unsorted before the last prefix is looked at
      have hany : (some last.stop).any (range.start < ·) = true := by simpa using hstop
      simp only [checkRange, hany, if_true]
  · simp only [checkRange, hcell, not_false_eq_true, true_or, if_true]

lemma checkBatch_congr (hlast : last.Storable f)
    (hp : ∀ p ∈ lastPrefix, p < f.prefixOf last.start)
    (hp' : ∀ p ∈ lastPrefix', p < f.prefixOf last.start) :
    checkBatch f lastPrefix (some last.stop) batch =
      checkBatch f lastPrefix' (some last.stop) batch := by
  induction batch generalizing last with
  | nil => rfl
  | cons range batch ih =>
    rw [checkBatch_cons, checkBatch_cons, ← checkRange_congr hlast hp hp']
    cases hrange : checkRange f lastPrefix (some last.stop) range with
    | error e => rfl
    | ok u =>
      obtain ⟨hstorable, hfollow⟩ := checkRange_eq_ok_iff.1 hrange
      have hle := hlast.prefixOf_le hstorable.isBoundary_start (hfollow.1 _ rfl)
      exact ih hstorable (fun p hmem => UInt32.lt_of_lt_of_le (hp p hmem) hle)
        fun p hmem => UInt32.lt_of_lt_of_le (hp' p hmem) hle

/-! ## What the additions see -/

lemma Stores.withLastStop (h : Stores f b groups) (stop : Option CellId) :
    Stores f (b.withLastStop stop) groups := ⟨h.format_eq, h.blocks, h.lastPrefix_eq⟩

/-- Where the last range ends does not matter to a group that is added. -/
lemma addGroup_withLastStop :
    (b.withLastStop stop).addGroup group = (b.addGroup group).map (·.withLastStop stop) := by
  cases group with
  | nil => rfl
  | cons first rest =>
    rw [addGroup, addGroup]
    simp only [withLastStop]
    cases tableBlock b.format (b.format.prefixOf first.start) (first :: rest) with
    | error e => rfl
    | ok block => cases hadd : b.tables.add block <;> simp [bind, Except.bind, hadd] <;> rfl

lemma foldlM_addGroup_withLastStop (b : RangeBuilder) (stop : Option CellId)
    (cut : List (List CellRange)) :
    cut.foldlM addGroup (b.withLastStop stop) =
      (cut.foldlM addGroup b).map (·.withLastStop stop) := by
  induction cut generalizing b with
  | nil => rfl
  | cons group cut ih =>
    rw [List.foldlM_cons, List.foldlM_cons, addGroup_withLastStop]
    cases b.addGroup group with
    | error e => rfl
    | ok b₁ => exact ih b₁

/-! ## What has been added, and what waits -/

namespace OpenGroup

variable {s : OpenGroup}

/-- The waiting ranges are a group that ends with a range, and their prefix is to be written. -/
structure EndsAt (f : Format) (s : OpenGroup) (last : CellRange) : Prop where
  isGroup : IsGroup f (f.prefixOf last.start) s.waiting
  mem : last ∈ s.waiting
  lastStop_eq : s.builder.lastStop = some last.stop
  fresh : ∀ p ∈ s.builder.lastPrefix, p < f.prefixOf last.start

/-- The builder has added the groups, and what waits, if anything, continues them. -/
structure Continues (f : Format) (s : OpenGroup) (groups : List PrefixGroup) : Prop where
  stores : Stores f s.builder groups
  le_lastPrefix : ∀ g ∈ groups, ∃ p ∈ s.builder.lastPrefix, g.tablePrefix ≤ p
  waiting : s.waiting = [] ∨ ∃ last, s.EndsAt f last

lemma push_eq (hf : s.builder.format = f) :
    s.push range = (checkRange f s.builder.lastPrefix s.builder.lastStop range >>= fun _ =>
      (s.closeBefore range).map (·.wait range)) := by
  rw [push, hf]
  rfl

lemma closeBefore_of_eq (hf : s.builder.format = f)
    (hsame : ∀ r ∈ s.waiting, f.prefixOf r.start = f.prefixOf range.start) :
    s.closeBefore range = .ok s := by
  rw [closeBefore]
  cases hwait : s.waiting with
  | nil => rfl
  | cons first rest =>
    rw [hf]
    exact if_pos (hsame first (by simp [hwait]))

lemma closeBefore_of_ne (hf : s.builder.format = f) (h : IsGroup f tablePrefix s.waiting)
    (hne : tablePrefix ≠ f.prefixOf range.start) :
    s.closeBefore range = s.close.map fun builder => { builder, waiting := [] } := by
  rw [closeBefore]
  cases hwait : s.waiting with
  | nil => exact absurd hwait h.ne_nil
  | cons first rest =>
    rw [hf]
    exact if_neg (h.prefixOf_eq first (by simp [hwait]) ▸ hne)

/-- A range that has the prefix of those that wait, if any, waits with them. -/
lemma Continues.continues_wait (h : Continues f s groups)
    (hcheck : checkRange f s.builder.lastPrefix s.builder.lastStop range = .ok ())
    (hsame : ∀ r ∈ s.waiting, f.prefixOf r.start = f.prefixOf range.start) :
    Continues f (s.wait range) groups ∧ (s.wait range).EndsAt f range := by
  obtain ⟨hstorable, -, hfresh⟩ := checkRange_eq_ok_iff.1 hcheck
  have hgroup : IsGroup f (f.prefixOf range.start) (s.waiting ++ [range]) := by
    refine ⟨by simp, fun r hr => ?_, fun r hr => ?_⟩
    · rcases List.mem_append.1 hr with hr | hr
      · rcases h.waiting with hnil | ⟨last, hlast⟩
        · exact absurd hr (by simp [hnil])
        · exact hlast.isGroup.storable r hr
      · exact List.mem_singleton.1 hr ▸ hstorable
    · rcases List.mem_append.1 hr with hr | hr
      · exact hsame r hr
      · rw [List.mem_singleton.1 hr]
  have hends : (s.wait range).EndsAt f range := ⟨hgroup, by simp [wait], rfl, hfresh⟩
  exact ⟨⟨h.stores.withLastStop _, h.le_lastPrefix, .inr ⟨range, hends⟩⟩, hends⟩

/-- The waiting ranges are added as one more group. -/
lemma Continues.exists_close (h : Continues f s groups) (hlast : s.EndsAt f last)
    (hruns : RunsFit f s.waiting) :
    ∃ b, s.close = .ok b ∧
      Continues f ⟨b, []⟩ (groups ++ [PrefixGroup.ofRanges f s.waiting]) ∧
      b.lastPrefix = some (f.prefixOf last.start) ∧ b.lastStop = s.builder.lastStop := by
  have htable := hlast.isGroup.tablePrefix_ofRanges
  have hlt : ∀ g ∈ groups, g.tablePrefix < f.prefixOf last.start := by
    intro g hg
    obtain ⟨p, hp, hle⟩ := h.le_lastPrefix g hg
    exact UInt32.lt_of_le_of_lt hle (hlast.fresh p hp)
  obtain ⟨b, hb⟩ := h.stores.exists_addGroup (htable ▸ hlast.isGroup)
    (fun g hg => htable ▸ UInt32.ne_of_lt (hlt g hg))
    (hruns _ List.infix_rfl _ (htable ▸ hlast.isGroup.prefixOf_eq))
  obtain ⟨hstores, hstop⟩ := h.stores.addGroup hlast.isGroup.ne_nil hb
  have hprefix : b.lastPrefix = some (f.prefixOf last.start) := by
    rw [hstores.lastPrefix_eq, List.getLast?_concat, ← htable]
    rfl
  refine ⟨b, hb, ⟨hstores, fun g hg => ⟨_, hprefix, ?_⟩, .inl rfl⟩, hprefix, hstop⟩
  rcases List.mem_append.1 hg with hg | hg
  · exact UInt32.le_of_lt (hlt g hg)
  · rw [List.mem_singleton.1 hg, htable]
    exact UInt32.le_refl _

/-- A range of another prefix still passes when the waiting ranges have been added. -/
lemma EndsAt.checkRange_eq_ok (h : s.EndsAt f last)
    (hcheck : checkRange f s.builder.lastPrefix s.builder.lastStop range = .ok ())
    (hne : f.prefixOf last.start ≠ f.prefixOf range.start) :
    checkRange f (some (f.prefixOf last.start)) s.builder.lastStop range = .ok () := by
  obtain ⟨hstorable, hstop, -⟩ := checkRange_eq_ok_iff.1 hcheck
  have hle := (h.isGroup.storable last h.mem).prefixOf_le hstorable.isBoundary_start
    (hstop _ h.lastStop_eq)
  refine checkRange_eq_ok_iff.2 ⟨hstorable, hstop, ?_⟩
  rintro p ⟨⟩
  exact UInt32.lt_of_le_of_ne hle hne

/-- The waiting ranges are cut into one group, if there are any. -/
lemma Continues.close_eq (h : Continues f s groups) :
    s.close = (RangeBuilder.groups f s.waiting).foldlM addGroup s.builder := by
  rcases h.waiting with hnil | ⟨last, hlast⟩
  · rw [close, hnil]
    rfl
  · have hcut : RangeBuilder.groups f (s.waiting ++ []) = [s.waiting] :=
      hlast.isGroup.groups_append (by simp)
    rw [List.append_nil] at hcut
    rw [hcut, close]
    exact (bind_pure _).symm

/-! ## One step and a run -/

/-- A range is taken: it waits now, and the groups that are still to be added are the same. -/
structure Takes (f : Format) (s : OpenGroup) (range : CellRange) (s' : OpenGroup) : Prop where
  push_eq : s.push range = .ok s'
  endsAt : s'.EndsAt f range
  suffix : s'.waiting <:+ s.waiting ++ [range]
  foldlM_eq : ∀ rest stop,
    (RangeBuilder.groups f (s.waiting ++ range :: rest)).foldlM addGroup
        (s.builder.withLastStop stop) =
      (RangeBuilder.groups f (s'.waiting ++ rest)).foldlM addGroup (s'.builder.withLastStop stop)

lemma Continues.takes_of_eq (h : Continues f s groups)
    (hcheck : checkRange f s.builder.lastPrefix s.builder.lastStop range = .ok ())
    (hsame : ∀ r ∈ s.waiting, f.prefixOf r.start = f.prefixOf range.start) :
    s.Takes f range (s.wait range) where
  push_eq := by
    rw [OpenGroup.push_eq h.stores.format_eq, hcheck, closeBefore_of_eq h.stores.format_eq hsame]
    rfl
  endsAt := (h.continues_wait hcheck hsame).2
  suffix := List.suffix_rfl
  foldlM_eq rest stop := by
    rw [List.append_cons]
    rfl

lemma Continues.takes_of_ne {b : RangeBuilder} (h : Continues f s groups) (hlast : s.EndsAt f last)
    (hcheck : checkRange f s.builder.lastPrefix s.builder.lastStop range = .ok ())
    (hne : f.prefixOf last.start ≠ f.prefixOf range.start) (hb : s.close = .ok b)
    (hends : (wait ⟨b, []⟩ range).EndsAt f range) :
    s.Takes f range (wait ⟨b, []⟩ range) where
  push_eq := by
    rw [OpenGroup.push_eq h.stores.format_eq, hcheck,
      closeBefore_of_ne h.stores.format_eq hlast.isGroup hne, hb]
    rfl
  endsAt := hends
  suffix := List.suffix_append ..
  foldlM_eq rest stop := by
    have hadd : (s.builder.withLastStop stop).addGroup s.waiting = .ok (b.withLastStop stop) :=
      addGroup_withLastStop.trans (congrArg (Except.map (·.withLastStop stop)) hb)
    rw [hlast.isGroup.groups_append (by simpa using hne.symm), List.foldlM_cons, hadd]
    rfl

/-- Each range that passes the checks is taken. -/
lemma Continues.exists_takes (h : Continues f s groups) (hruns : RunsFit f s.waiting)
    (hcheck : checkRange f s.builder.lastPrefix s.builder.lastStop range = .ok ()) :
    ∃ s' groups', s.Takes f range s' ∧ Continues f s' groups' := by
  by_cases hsame : ∀ r ∈ s.waiting, f.prefixOf r.start = f.prefixOf range.start
  · exact ⟨_, groups, h.takes_of_eq hcheck hsame, (h.continues_wait hcheck hsame).1⟩
  · push Not at hsame
    obtain ⟨r, hr, hne⟩ := hsame
    obtain hnil | ⟨last, hlast⟩ := h.waiting
    · exact absurd hr (by simp [hnil])
    · rw [hlast.isGroup.prefixOf_eq r hr] at hne
      obtain ⟨b, hb, hclosed, hprefix, hstop⟩ := h.exists_close hlast hruns
      have hcheck' := hlast.checkRange_eq_ok hcheck hne
      rw [← hprefix, ← hstop] at hcheck'
      obtain ⟨hcont, hends⟩ := hclosed.continues_wait hcheck' (by simp)
      exact ⟨_, _, h.takes_of_ne hlast hcheck hne hb hends, hcont⟩

/-- The rest of a batch can be checked and added at once. -/
lemma Continues.foldlM_push (h : Continues f s groups) (rest : List CellRange)
    (hruns : RunsFit f (s.waiting ++ rest)) :
    (rest.foldlM push s >>= close) =
      (checkBatch f s.builder.lastPrefix s.builder.lastStop rest >>= fun _ =>
        (RangeBuilder.groups f (s.waiting ++ rest)).foldlM addGroup
          (s.builder.withLastStop (stopAfter s.builder.lastStop rest))) := by
  -- on the ranges that are still to come; what waits and what has been added changes with each
  induction rest generalizing s groups with
  | nil =>
    rw [List.append_nil]
    exact h.close_eq
  | cons range rest ih =>
    rw [List.foldlM_cons, checkBatch_cons]
    cases hcheck : checkRange f s.builder.lastPrefix s.builder.lastStop range with
    | error e =>
      rw [push_eq h.stores.format_eq, hcheck]
      rfl
    | ok u =>
      obtain ⟨s', groups', htakes, hcont⟩ :=
        h.exists_takes (hruns.mono (List.prefix_append ..).isInfix) hcheck
      obtain ⟨front, hfront⟩ := htakes.suffix
      have hruns' : RunsFit f (s'.waiting ++ rest) := by
        refine hruns.mono (List.IsSuffix.isInfix ⟨front, ?_⟩)
        rw [← List.append_assoc, hfront, List.append_assoc, List.singleton_append]
      -- the checks of the rest do not see whether the waiting ranges have been added before them
      obtain ⟨hstorable, -, hfresh⟩ := checkRange_eq_ok_iff.1 hcheck
      have hchecks : checkBatch f s.builder.lastPrefix (some range.stop) rest =
          checkBatch f s'.builder.lastPrefix (some range.stop) rest :=
        checkBatch_congr hstorable hfresh htakes.endsAt.fresh
      have hrest := ih hcont hruns'
      rw [htakes.endsAt.lastStop_eq, ← htakes.foldlM_eq, ← hchecks] at hrest
      rw [htakes.push_eq, stopAfter_cons]
      exact hrest

end OpenGroup

/-- **A batch may be added range by range.**  As long as no shared data gets too long, this has the
result of checking the whole batch before anything is added, whether the batch is taken or
refused. -/
theorem addEach_eq_add (h : Holds f b groups) (hruns : RunsFit f batch) :
    b.addEach batch = b.add batch := by
  have hstart : OpenGroup.Continues f ⟨b, []⟩ groups := by
    refine ⟨h.toStores, fun g hg => ?_, .inl rfl⟩
    obtain ⟨last, hlast, hle⟩ := tablePrefix_le_last h.division hg
    exact ⟨last.tablePrefix, by rw [h.lastPrefix_eq, hlast]; rfl, hle⟩
  have hpush := hstart.foldlM_push batch hruns
  rw [addEach, hpush, add, h.format_eq]
  cases checkBatch f b.lastPrefix b.lastStop batch with
  | error e => rfl
  | ok u =>
    have hfold := foldlM_addGroup_withLastStop b (stopAfter b.lastStop batch)
      (RangeBuilder.groups f batch)
    cases hcut : (RangeBuilder.groups f batch).foldlM addGroup b with
    | error e =>
      rw [hcut] at hfold
      exact hfold
    | ok b' =>
      rw [hcut] at hfold
      have hstop := (h.toStores.foldlM_groups hcut).2
      refine hfold.trans ?_
      rw [← hstop]
      rfl

end RangeBuilder

end CellIndex
