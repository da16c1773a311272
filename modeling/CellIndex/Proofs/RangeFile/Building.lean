import CellIndex.Proofs.RangeFile.Groups
import CellIndex.Proofs.Table.Image

/-!
# What a builder holds

After any number of accepted batches a builder holds a division of all ranges that have been added:
its blocks are the suffix tables of the groups, and it remembers the last prefix and the end of the
last range (`Holds`).  One accepted batch continues the division (`exists_holds_of_add`).
-/

namespace CellIndex

open Sequence

/-- The block is the suffix table of the group. -/
structure IsBlockOf (f : Format) (g : PrefixGroup) (block : Block) : Prop where
  tableBlock_eq : RangeBuilder.tableBlock f g.tablePrefix g.ranges = .ok block
  shared_lt : block.shared.length < 2 ^ 32

namespace RangeBuilder

variable {f : Format} {b b' : RangeBuilder} {groups groups' : List PrefixGroup}
  {batch group : List CellRange}

/-- The builder has written the suffix tables of the groups, one block for each, and remembers the
last prefix. -/
structure Stores (f : Format) (b : RangeBuilder) (groups : List PrefixGroup) : Prop where
  format_eq : b.format = f
  blocks : List.Forall₂ (IsBlockOf f) groups b.tables.blocks
  lastPrefix_eq : b.lastPrefix = groups.getLast?.map PrefixGroup.tablePrefix

/-- The builder has accepted the ranges of a division, and remembers where the last one ends. -/
structure Holds (f : Format) (b : RangeBuilder) (groups : List PrefixGroup) : Prop
    extends Stores f b groups where
  division : Division f groups
  lastStop_eq : b.lastStop = (rangesIn groups).getLast?.map CellRange.stop

lemma holds_new (f : Format) : Holds f (new f) [] where
  format_eq := rfl
  blocks := .nil
  lastPrefix_eq := rfl
  division := .nil f
  lastStop_eq := rfl

/-! ## One batch -/

/-- Adding a group writes its suffix table. -/
lemma Stores.addGroup (h : Stores f b groups) (hne : group ≠ [])
    (hadd : b.addGroup group = .ok b') :
    Stores f b' (groups ++ [PrefixGroup.ofRanges f group]) ∧ b'.lastStop = b.lastStop := by
  obtain rfl := h.format_eq
  cases group with
  | nil => exact absurd rfl hne
  | cons first rest =>
    obtain ⟨block, hblock, hadd⟩ := bind_eq_ok.1 hadd
    obtain ⟨tables, htables, hadd⟩ := bind_eq_ok.1 hadd
    obtain rfl := Except.ok.inj hadd
    obtain ⟨hblocks, hshared⟩ := Builder.add_eq_ok htables
    refine ⟨⟨rfl, ?_, ?_⟩, rfl⟩
    · simp only [hblocks]
      exact List.rel_append h.blocks (.cons ⟨hblock, hshared⟩ .nil)
    · simp [PrefixGroup.ofRanges]

/-- Adding groups one after the other writes all their suffix tables. -/
lemma Stores.foldlM_addGroup {cut : List (List CellRange)} (h : Stores f b groups)
    (hne : ∀ group ∈ cut, group ≠ []) (hadd : cut.foldlM RangeBuilder.addGroup b = .ok b') :
    Stores f b' (groups ++ cut.map (PrefixGroup.ofRanges f)) ∧ b'.lastStop = b.lastStop := by
  -- on the groups that are still to come
  induction cut generalizing b groups with
  | nil =>
    obtain rfl := Except.ok.inj hadd
    exact ⟨by simpa using h, rfl⟩
  | cons group cut ih =>
    rw [List.foldlM_cons] at hadd
    obtain ⟨b₁, hfirst, hrest⟩ := bind_eq_ok.1 hadd
    obtain ⟨h₁, hstop₁⟩ := h.addGroup (hne group List.mem_cons_self) hfirst
    obtain ⟨h₂, hstop₂⟩ := ih h₁ (fun g hg => hne g (List.mem_cons_of_mem _ hg)) hrest
    rw [List.append_assoc] at h₂
    exact ⟨h₂, hstop₂.trans hstop₁⟩

/-- A batch is added exactly if it is good and all its groups can be added. -/
lemma add_eq_ok_iff (hf : b.format = f) : b.add batch = .ok b' ↔
    GoodBatch f b.lastPrefix b.lastStop batch ∧
      ∃ c, (RangeBuilder.groups f batch).foldlM RangeBuilder.addGroup b = .ok c ∧
        b' = { c with lastStop := (batch.getLast?.map CellRange.stop).or c.lastStop } := by
  subst hf
  rw [add, bind_eq_ok, ← checkBatch_eq_ok_iff]
  constructor
  · rintro ⟨⟨⟩, hcheck, hadd⟩
    obtain ⟨c, hfold, hc⟩ := bind_eq_ok.1 hadd
    exact ⟨hcheck, c, hfold, (Except.ok.inj hc).symm⟩
  · rintro ⟨hcheck, c, hfold, rfl⟩
    exact ⟨(), hcheck, bind_eq_ok.2 ⟨c, hfold, rfl⟩⟩

/-- Adding the groups of a batch continues what is stored. -/
lemma Stores.foldlM_groups (h : Stores f b groups)
    (hfold : (RangeBuilder.groups f batch).foldlM RangeBuilder.addGroup b = .ok b') :
    Stores f b' (groups ++ prefixGroups f batch) ∧ b'.lastStop = b.lastStop :=
  h.foldlM_addGroup (fun _ hg => List.ne_nil_of_mem_splitBy hg) hfold

/-- Every prefix of a division comes no later than that of its last group. -/
lemma tablePrefix_le_last (h : Division f groups) {g : PrefixGroup} (hg : g ∈ groups) :
    ∃ last, groups.getLast? = some last ∧ g.tablePrefix ≤ last.tablePrefix := by
  have hne := List.ne_nil_of_mem hg
  refine ⟨groups.getLast hne, List.getLast?_eq_some_getLast hne, ?_⟩
  have hp := h.pairwise_prefix
  rw [← List.dropLast_append_getLast hne] at hp hg
  rcases List.mem_append.1 hg with hg | hg
  · have hlt := (List.pairwise_append.1 hp).2.2 g hg _ List.mem_cons_self
    exact UInt32.le_of_lt hlt
  · rw [List.mem_singleton.1 hg]
    exact UInt32.le_refl _

/-- Every range of a division ends no later than the last one does. -/
lemma stop_le_last (h : Division f groups) {range : CellRange} (hr : range ∈ rangesIn groups) :
    ∃ last, (rangesIn groups).getLast? = some last ∧ range.stop ≤ last.stop := by
  have hne := List.ne_nil_of_mem hr
  refine ⟨(rangesIn groups).getLast hne, List.getLast?_eq_some_getLast hne, ?_⟩
  have hlast := (h.storable (List.getLast_mem hne)).start_lt_stop
  have hp := h.pairwise
  rw [← List.dropLast_append_getLast hne] at hp hr
  rcases List.mem_append.1 hr with hr | hr
  · have hle := (List.pairwise_append.1 hp).2.2 range hr _ List.mem_cons_self
    exact le_trans hle (le_of_lt hlast)
  · rw [List.mem_singleton.1 hr]

/-- A good batch comes after all groups that a builder holds. -/
lemma Holds.division_append (h : Holds f b groups)
    (hbatch : GoodBatch f b.lastPrefix b.lastStop batch) :
    Division f (groups ++ prefixGroups f batch) := by
  refine h.division.append (division_of_goodBatch hbatch) ?_ ?_
  · intro g hg g' hg'
    -- a new group begins with a prefix behind the remembered one, which is the last of the old ones
    obtain ⟨last, hlast, hle⟩ := tablePrefix_le_last h.division hg
    have hgroup := isGroup_of_mem_prefixGroups hbatch hg'
    obtain ⟨range, hr⟩ := List.exists_mem_of_ne_nil _ hgroup.ne_nil
    have hmem : range ∈ batch := by
      rw [← rangesIn_prefixGroups f batch]
      exact mem_rangesIn.2 ⟨g', hg', hr⟩
    have hlt := (hbatch.follows range hmem).2 last.tablePrefix
      (by rw [h.lastPrefix_eq, hlast]; rfl)
    rw [hgroup.prefixOf_eq range hr] at hlt
    exact UInt32.lt_of_le_of_lt hle hlt
  · intro r hr r' hr'
    obtain ⟨last, hlast, hle⟩ := stop_le_last h.division hr
    rw [rangesIn_prefixGroups] at hr'
    have hstop := (hbatch.follows r' hr').1 last.stop (by rw [h.lastStop_eq, hlast]; rfl)
    exact le_trans hle hstop

/-- One accepted batch continues the division by its own groups. -/
theorem exists_holds_of_add (h : Holds f b groups) (hadd : b.add batch = .ok b') :
    ∃ groups', Holds f b' (groups ++ groups') ∧ rangesIn groups' = batch := by
  obtain ⟨hbatch, b₁, hfold, rfl⟩ := (add_eq_ok_iff h.format_eq).1 hadd
  obtain ⟨hstores, hstop⟩ := h.toStores.foldlM_groups hfold
  refine ⟨prefixGroups f batch, ⟨⟨hstores.format_eq, hstores.blocks, hstores.lastPrefix_eq⟩,
    h.division_append hbatch, ?_⟩, rangesIn_prefixGroups f batch⟩
  change (batch.getLast?.map CellRange.stop).or b₁.lastStop = _
  rw [hstop, h.lastStop_eq, rangesIn_append, rangesIn_prefixGroups, List.getLast?_append,
    Option.map_or]

end RangeBuilder

end CellIndex
