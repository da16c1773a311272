import CellIndex.Proofs.RangeFile.Rules
import CellIndex.Proofs.SuffixTable.Table
import Mathlib.Data.List.SplitBy

/-!
# Groups of one prefix

The ranges of a file are divided into groups: each is the suffix table of a prefix, and the prefixes
ascend (`Division`).  A good batch is divided by cutting it wherever the prefix changes
(`division_of_goodBatch`), and a division can be continued by one with later prefixes
(`Division.append`).  The group of a prefix consists of all ranges that begin with it
(`Division.rangesOfPrefix_eq`).
-/

namespace CellIndex

variable {f : Format} {tablePrefix : UInt32} {group : List CellRange}

/-- The ranges of a prefix. -/
structure PrefixGroup where
  /-- The prefix. -/
  tablePrefix : UInt32
  /-- The ranges. -/
  ranges : List CellRange

namespace PrefixGroup

/-- The group that ranges of one prefix form. -/
def ofRanges (f : Format) : List CellRange → PrefixGroup
  | [] => ⟨0, []⟩
  | first :: rest => ⟨f.prefixOf first.start, first :: rest⟩

@[simp] lemma ranges_ofRanges (f : Format) (group : List CellRange) :
    (ofRanges f group).ranges = group := by
  cases group <;> rfl

end PrefixGroup

/-- The ranges of some groups, one group after the other. -/
def rangesIn (groups : List PrefixGroup) : List CellRange := groups.flatMap PrefixGroup.ranges

/-- The ranges of a file, divided into groups that can form suffix tables: the prefixes ascend, and
all ranges stand in order. -/
structure Division (f : Format) (groups : List PrefixGroup) : Prop where
  isGroup : ∀ g ∈ groups, IsGroup f g.tablePrefix g.ranges
  pairwise_prefix : groups.Pairwise fun a b => a.tablePrefix < b.tablePrefix
  pairwise : (rangesIn groups).Pairwise fun a b => a.stop ≤ b.start

lemma rangesIn_append (groups groups' : List PrefixGroup) :
    rangesIn (groups ++ groups') = rangesIn groups ++ rangesIn groups' := List.flatMap_append

lemma mem_rangesIn {groups : List PrefixGroup} {range : CellRange} :
    range ∈ rangesIn groups ↔ ∃ g ∈ groups, range ∈ g.ranges := List.mem_flatMap

namespace Division

variable {groups groups' : List PrefixGroup} {range : CellRange}

lemma nil (f : Format) : Division f [] := ⟨by simp, .nil, .nil⟩

lemma storable (h : Division f groups) (hr : range ∈ rangesIn groups) : range.Storable f := by
  obtain ⟨g, hg, hr⟩ := mem_rangesIn.1 hr
  exact (h.isGroup g hg).storable range hr

/-- A division goes on with groups whose prefixes and ranges come later. -/
lemma append (h : Division f groups) (h' : Division f groups')
    (hprefixes : ∀ g ∈ groups, ∀ g' ∈ groups', g.tablePrefix < g'.tablePrefix)
    (hrange : ∀ r ∈ rangesIn groups, ∀ r' ∈ rangesIn groups', r.stop ≤ r'.start) :
    Division f (groups ++ groups') where
  isGroup g hg := (List.mem_append.1 hg).elim (h.isGroup g) (h'.isGroup g)
  pairwise_prefix := List.pairwise_append.2 ⟨h.pairwise_prefix, h'.pairwise_prefix, hprefixes⟩
  pairwise := by
    rw [rangesIn_append]
    exact List.pairwise_append.2 ⟨h.pairwise, h'.pairwise, hrange⟩

lemma rangesOfPrefix_eq_nil (h : ∀ g ∈ groups, IsGroup f g.tablePrefix g.ranges)
    (hp : ∀ g ∈ groups, g.tablePrefix ≠ tablePrefix) :
    rangesOfPrefix f (rangesIn groups) tablePrefix = [] := by
  refine List.filter_eq_nil_iff.2 fun r hr => ?_
  obtain ⟨g, hg, hr⟩ := mem_rangesIn.1 hr
  simpa only [(h g hg).prefixOf_eq r hr, decide_eq_true_eq] using hp g hg

/-- The ranges of a group are those that begin with its prefix. -/
lemma rangesOfPrefix_eq (h : Division f groups) {g : PrefixGroup} (hg : g ∈ groups) :
    rangesOfPrefix f (rangesIn groups) g.tablePrefix = g.ranges := by
  obtain ⟨front, back, rfl⟩ := List.append_of_mem hg
  obtain ⟨-, hback, hfront⟩ := List.pairwise_append.1 h.pairwise_prefix
  have hf : rangesOfPrefix f (rangesIn front) g.tablePrefix = [] :=
    rangesOfPrefix_eq_nil (fun g' hg' => h.isGroup g' (List.mem_append_left _ hg'))
      fun g' hg' => UInt32.ne_of_lt (hfront g' hg' g List.mem_cons_self)
  have hb : rangesOfPrefix f (rangesIn back) g.tablePrefix = [] :=
    rangesOfPrefix_eq_nil
      (fun g' hg' => h.isGroup g' (List.mem_append_right _ (List.mem_cons_of_mem _ hg')))
      fun g' hg' => (UInt32.ne_of_lt (List.rel_of_pairwise_cons hback hg')).symm
  -- what is left is the group itself, all of whose ranges have the prefix
  have hself : rangesOfPrefix f g.ranges g.tablePrefix = g.ranges :=
    List.filter_eq_self.2 fun r hr => decide_eq_true ((h.isGroup g hg).prefixOf_eq r hr)
  have hsplit : rangesIn (front ++ g :: back) = rangesIn front ++ (g.ranges ++ rangesIn back) :=
    rangesIn_append front (g :: back)
  rw [rangesOfPrefix] at hf hb hself ⊢
  rw [hsplit, List.filter_append, List.filter_append, hf, hb, hself, List.nil_append,
    List.append_nil]

lemma tablePrefix_le (h : Division f groups) {g : PrefixGroup} (hg : g ∈ groups) :
    g.tablePrefix.toNat ≤ f.maxPrefix := by
  have hgroup := h.isGroup g hg
  obtain ⟨range, hr⟩ := List.exists_mem_of_ne_nil _ hgroup.ne_nil
  rw [← hgroup.prefixOf_eq range hr]
  exact f.prefixOf_le _

end Division

/-! ## The groups of a batch -/

namespace RangeBuilder

variable {lastPrefix : Option UInt32} {lastStop : Option CellId} {batch : List CellRange}

/-- A batch is cut where the prefix changes. -/
lemma groups_append {front back : List CellRange}
    (h : ∀ a ∈ front.getLast?, ∀ b ∈ back.head?, f.prefixOf a.start ≠ f.prefixOf b.start) :
    groups f (front ++ back) = groups f front ++ groups f back :=
  List.splitBy_append fun a ha b hb => beq_false_of_ne (h a ha b hb)

/-- The groups that a batch is cut into. -/
def prefixGroups (f : Format) (batch : List CellRange) : List PrefixGroup :=
  (groups f batch).map (PrefixGroup.ofRanges f)

/-- No range is lost by the cutting, and none comes twice. -/
lemma rangesIn_prefixGroups (f : Format) (batch : List CellRange) :
    rangesIn (prefixGroups f batch) = batch := by
  have hranges : ∀ group : List CellRange, (PrefixGroup.ofRanges f group).ranges = id group :=
    PrefixGroup.ranges_ofRanges f
  rw [rangesIn, prefixGroups, List.flatMap_map, funext hranges, ← List.flatten_eq_flatMap, groups,
    List.flatten_splitBy]

/-- All ranges between two cuts have one prefix. -/
lemma prefixOf_eq_of_mem_groups (h : group ∈ groups f batch) :
    ∀ range ∈ group, f.prefixOf range.start = (PrefixGroup.ofRanges f group).tablePrefix := by
  have hchain := List.isChain_of_mem_splitBy h
  -- the cut only compares neighbours, but equality of prefixes is transitive
  have heq : group.Pairwise fun a b => f.prefixOf a.start = f.prefixOf b.start := by
    have : IsTrans CellRange fun a b => f.prefixOf a.start = f.prefixOf b.start :=
      ⟨fun _ _ _ => Eq.trans⟩
    refine List.isChain_iff_pairwise.1 (hchain.imp fun a b hab => ?_)
    exact eq_of_beq hab
  cases group with
  | nil => simp
  | cons first rest =>
    rintro range (_ | ⟨_, hr⟩)
    · rfl
    · exact (List.rel_of_pairwise_cons heq hr).symm

lemma isGroup_of_mem_prefixGroups (h : GoodBatch f lastPrefix lastStop batch) {g : PrefixGroup}
    (hg : g ∈ prefixGroups f batch) : IsGroup f g.tablePrefix g.ranges := by
  obtain ⟨group, hgroup, rfl⟩ := List.mem_map.1 hg
  rw [PrefixGroup.ranges_ofRanges]
  refine ⟨List.ne_nil_of_mem_splitBy hgroup, fun range hr => ?_, prefixOf_eq_of_mem_groups hgroup⟩
  apply h.storable
  rw [← rangesIn_prefixGroups f batch]
  exact mem_rangesIn.2 ⟨_, hg, by rwa [PrefixGroup.ranges_ofRanges]⟩

/-- In a good batch the prefixes do not descend. -/
lemma GoodBatch.pairwise_prefix (h : GoodBatch f lastPrefix lastStop batch) :
    batch.Pairwise fun a b => f.prefixOf a.start ≤ f.prefixOf b.start :=
  h.pairwise.imp_of_mem fun ha hb hab =>
    (h.storable _ ha).prefixOf_le (h.storable _ hb).isBoundary_start hab

/-- Neighbours that are related in two ways. -/
lemma isChain_and_of_pairwise {α : Type} {R S : α → α → Prop} {l : List α} (h : l.IsChain R)
    (h' : l.Pairwise S) : l.IsChain fun a b => R a b ∧ S a b := by
  induction h with
  | nil => exact .nil
  | singleton a => exact .singleton a
  | cons_cons hab _ ih =>
    exact .cons_cons ⟨hab, List.rel_of_pairwise_cons h' List.mem_cons_self⟩ (ih h'.of_cons)

/-- At each cut the prefix gets larger. -/
lemma pairwise_prefixGroups (h : GoodBatch f lastPrefix lastStop batch) :
    (prefixGroups f batch).Pairwise fun a b => a.tablePrefix < b.tablePrefix := by
  have : IsTrans PrefixGroup fun a b => a.tablePrefix < b.tablePrefix :=
    ⟨fun _ _ _ => UInt32.lt_trans⟩
  have hcuts := List.isChain_getLast_head_splitBy
    (fun a b : CellRange => f.prefixOf a.start == f.prefixOf b.start) batch
  have hle : (groups f batch).flatten.Pairwise fun a b =>
      f.prefixOf a.start ≤ f.prefixOf b.start := by
    rw [groups, List.flatten_splitBy]
    exact h.pairwise_prefix
  rw [prefixGroups, ← List.isChain_iff_pairwise, List.isChain_map]
  refine (isChain_and_of_pairwise hcuts (List.pairwise_flatten.1 hle).2).imp_of_mem_imp ?_
  -- the ranges on both sides of a cut have other prefixes, and prefixes do not descend
  rintro a b ha hb ⟨⟨hna, hnb, hne⟩, hab⟩
  have hlast := prefixOf_eq_of_mem_groups ha _ (List.getLast_mem hna)
  have hhead := prefixOf_eq_of_mem_groups hb _ (List.head_mem hnb)
  have hstep := hab _ (List.getLast_mem hna) _ (List.head_mem hnb)
  rw [hlast, hhead] at hne hstep
  exact UInt32.lt_of_le_of_ne hstep (ne_of_beq_false hne)

/-- A good batch is divided into groups. -/
theorem division_of_goodBatch (h : GoodBatch f lastPrefix lastStop batch) :
    Division f (prefixGroups f batch) where
  isGroup _ hg := isGroup_of_mem_prefixGroups h hg
  pairwise_prefix := pairwise_prefixGroups h
  pairwise := by
    rw [rangesIn_prefixGroups]
    exact h.pairwise

end RangeBuilder

end CellIndex
