import CellIndex.Proofs.Format.Header
import CellIndex.Proofs.RangeFile.Building
import CellIndex.Proofs.RangeFile.Contents
import Mathlib.Data.List.Perm.Subperm

/-!
# Range files are read back

The table of a finished builder is read as the range file of the ranges that the builder holds
(`ofBytes_image`): the header block stands first, behind it the suffix tables in the order of their
prefixes, and every block is found under its number.
-/

namespace CellIndex

open Sequence

variable {f : Format} {p q : UInt32}

/-! ## Block numbers -/

namespace Format

/-- The numbers of all blocks are words, and there is one word more. -/
lemma maxPrefix_add_two_lt (f : Format) : f.maxPrefix + 2 < 2 ^ 32 := by
  have hpos := f.valid.blockOffset_pos
  have hle := f.valid.blockOffset_le
  have hbits : f.prefixBits < 32 := by
    by_contra hge
    have hpow : 2 ^ 32 ≤ 2 ^ f.prefixBits := Nat.pow_le_pow_right (by decide) (Nat.not_lt.1 hge)
    rw [prefixBits] at hpow
    omega
  have hpow : 2 ^ f.prefixBits ≤ 2 ^ 31 := Nat.pow_le_pow_right (by decide) (by omega)
  rw [maxPrefix]
  omega

lemma toNat_blockId (h : p.toNat ≤ f.maxPrefix) :
    (f.blockId p).toNat = p.toNat + f.params.blockOffset.toNat := by
  have hle := f.valid.blockOffset_le
  have hpos := Nat.two_pow_pos f.prefixBits
  rw [maxPrefix] at h
  rw [blockId, UInt32.toNat_add]
  exact Nat.mod_eq_of_lt (by rw [prefixBits] at *; omega)

lemma blockId_lt_iff (hp : p.toNat ≤ f.maxPrefix) (hq : q.toNat ≤ f.maxPrefix) :
    f.blockId p < f.blockId q ↔ p < q := by
  rw [UInt32.lt_iff_toNat_lt, UInt32.lt_iff_toNat_lt, toNat_blockId hp, toNat_blockId hq]
  omega

lemma blockId_inj : f.blockId p = f.blockId q ↔ p = q := by
  simp [blockId]

/-- No suffix table has the number of the header block. -/
lemma headerBlockId_lt (hp : p.toNat ≤ f.maxPrefix) : headerBlockId < f.blockId p := by
  have hpos := f.valid.blockOffset_pos
  rw [UInt32.lt_iff_toNat_lt, toNat_blockId hp]
  change 0 < _
  omega

end Format

namespace RangeFile

lemma isBlockId_blockId (hp : p.toNat ≤ f.maxPrefix) : isBlockId f (f.blockId p) = true := by
  rw [isBlockId, Format.toNat_blockId hp]
  exact decide_eq_true (Or.inr ⟨by omega, by omega⟩)

end RangeFile

namespace IsBlockOf

variable {g : PrefixGroup} {block : Block}

lemma id_eq (h : IsBlockOf f g block) : block.id = f.blockId g.tablePrefix := by
  obtain ⟨table, -, rfl⟩ := map_eq_ok.1 h.tableBlock_eq
  rfl

/-- The suffix table of a group is read back. -/
lemma ofBlock_eq (h : IsBlockOf f g block) (hg : IsGroup f g.tablePrefix g.ranges) :
    SuffixTable.ofBlock f block = .ok (SuffixTable.ofGroup f g.tablePrefix g.ranges) := by
  obtain ⟨table, htable, rfl⟩ := map_eq_ok.1 h.tableBlock_eq
  exact SuffixTable.ofBlock_of_ofRanges hg _ htable h.shared_lt

end IsBlockOf

/-! ## The finished table -/

namespace RangeBuilder

variable {b : RangeBuilder} {groups : List PrefixGroup} {t : Builder} {timestamp : Int64}

/-- The blocks of a finished table in the order of their numbers. -/
def finishedBlocks (b : RangeBuilder) : List Block := headerBlock b.format :: b.tables.blocks

lemma map_id_blocks {blocks : List Block} (h : List.Forall₂ (IsBlockOf f) groups blocks) :
    blocks.map Block.id = groups.map fun g => f.blockId g.tablePrefix := by
  induction h with
  | nil => rfl
  | cons hb _ ih => rw [List.map_cons, List.map_cons, hb.id_eq, ih]

namespace Holds

lemma finishedBlocks_eq (h : Holds f b groups) :
    finishedBlocks b = headerBlock f :: b.tables.blocks := by
  rw [finishedBlocks, h.format_eq]

lemma id_eq_of_mem_blocks (h : Holds f b groups) {block : Block} (hb : block ∈ b.tables.blocks) :
    ∃ g ∈ groups, block.id = f.blockId g.tablePrefix := by
  have hmem := List.mem_map_of_mem (f := Block.id) hb
  rw [map_id_blocks h.blocks] at hmem
  obtain ⟨g, hg, hid⟩ := List.mem_map.1 hmem
  exact ⟨g, hg, hid.symm⟩

lemma pairwise_finishedBlocks (h : Holds f b groups) :
    (finishedBlocks b).Pairwise (·.id < ·.id) := by
  rw [h.finishedBlocks_eq]
  refine List.pairwise_cons.2 ⟨fun block hb => ?_, ?_⟩
  · obtain ⟨g, hg, hid⟩ := h.id_eq_of_mem_blocks hb
    rw [hid]
    exact Format.headerBlockId_lt (h.division.tablePrefix_le hg)
  · rw [← @List.pairwise_map _ _ Block.id (· < ·), map_id_blocks h.blocks, List.pairwise_map]
    exact h.division.pairwise_prefix.imp_of_mem fun {a c} ha hc hac =>
      (Format.blockId_lt_iff (h.division.tablePrefix_le ha) (h.division.tablePrefix_le hc)).2 hac

lemma blocks_finish (h : Holds f b groups) (hfin : b.finish = .ok t) :
    t.blocks = b.tables.blocks ++ [headerBlock f] := by
  rw [finish, h.format_eq] at hfin
  exact (Builder.add_eq_ok hfin).1

lemma sortedBlocks_finish (h : Holds f b groups) (hfin : b.finish = .ok t) :
    t.sortedBlocks = finishedBlocks b := by
  have hperm : t.sortedBlocks.Perm (finishedBlocks b) := by
    refine (List.mergeSort_perm _ _).trans ?_
    rw [h.blocks_finish hfin, h.finishedBlocks_eq]
    exact List.perm_append_singleton _ _
  -- both lists ascend strictly, so one is a reordering of the other only if they are equal
  refine hperm.eq_of_pairwise (fun x y _ _ hxy hyx => ?_) t.pairwise_sortedBlocks
    h.pairwise_finishedBlocks
  exact absurd hyx (UInt32.not_lt.2 (UInt32.le_of_lt hxy))

/-- There are no more groups than prefixes. -/
lemma length_groups_le (h : Division f groups) : groups.length ≤ f.maxPrefix + 1 := by
  have hnodup : (groups.map fun g => g.tablePrefix.toNat).Nodup := by
    refine List.pairwise_map.2 (h.pairwise_prefix.imp fun {a c} hac => ?_)
    exact Nat.ne_of_lt (UInt32.lt_iff_toNat_lt.1 hac)
  have hsub : (groups.map fun g => g.tablePrefix.toNat) ⊆ List.range (f.maxPrefix + 1) := by
    intro n hn
    obtain ⟨g, hg, rfl⟩ := List.mem_map.1 hn
    exact List.mem_range.2 (Nat.lt_succ_of_le (h.tablePrefix_le hg))
  -- distinct numbers below a bound are no more than the bound
  have hle := (List.subperm_of_subset hnodup hsub).length_le
  rwa [List.length_map, List.length_range] at hle

lemma blockCount_finish (h : Holds f b groups) (hfin : b.finish = .ok t) :
    t.blockCount = groups.length + 1 := by
  rw [Builder.blockCount, h.blocks_finish hfin, List.length_append, List.length_singleton,
    h.blocks.length_eq]

lemma shared_lt_finish (h : Holds f b groups) (hfin : b.finish = .ok t) :
    ∀ block ∈ t.blocks, block.shared.length < 2 ^ 32 := by
  rw [h.blocks_finish hfin]
  intro block hb
  rcases List.mem_append.1 hb with hb | hb
  · obtain ⟨g, -, hg⟩ := exists_of_forall₂ h.blocks.flip hb
    exact hg.shared_lt
  · rw [List.mem_singleton.1 hb]
    exact Nat.two_pow_pos 32

end Holds

end RangeBuilder

namespace RangeFile

lemma prefixTable_of_find? {r : RangeFile} {block : Block} {table : SuffixTable r.format}
    (hp : p.toNat ≤ r.format.maxPrefix) (hfind : r.table.find? (r.format.blockId p) = some block)
    (hread : SuffixTable.ofBlock r.format block = .ok table) (htable : table.tablePrefix = p) :
    r.prefixTable p = .ok (.populated table) := by
  rw [prefixTable, if_neg (Nat.not_lt.2 hp)]
  simp only [hfind, hread]
  exact if_neg (not_not_intro htable)

lemma prefixTable_of_find?_eq_none {r : RangeFile} (hp : p.toNat ≤ r.format.maxPrefix)
    (hfind : r.table.find? (r.format.blockId p) = none) :
    r.prefixTable p = .ok (.unpopulated p) := by
  rw [prefixTable, if_neg (Nat.not_lt.2 hp)]
  simp only [hfind]

/-- A block gives back the ranges of its suffix table. -/
lemma rangesOf_of_prefixTable {r : RangeFile} {group : List CellRange}
    (hgroup : IsGroup r.format p group)
    (htable : r.prefixTable p = .ok (.populated (SuffixTable.ofGroup r.format p group))) :
    r.rangesOf (r.format.blockId p) = group.map fun range => .ok (range.stored r.format) := by
  have hsub : r.format.blockId p - r.format.params.blockOffset = p := by simp [Format.blockId]
  have hranges := congrArg (List.map (@Except.ok Error CellRange))
    (SuffixTable.map_range_entries hgroup)
  rw [List.map_map, List.map_map] at hranges
  rw [rangesOf, hsub, htable]
  exact hranges

/-- A table with the given blocks. -/
def withBlocks (f : Format) (header : Header) (blocks : List Block) : RangeFile where
  table := { header, blocks := blocks.toArray }
  format := f

/-- A table is a range file if its header block is one and it has no stray blocks. -/
lemma ofTable_withBlocks {blocks : List Block} (header : Header)
    (hpair : blocks.Pairwise (·.id < ·.id)) (hheader : RangeBuilder.headerBlock f ∈ blocks)
    (hids : ∀ block ∈ blocks, isBlockId f block.id = true) :
    ofTable { header, blocks := blocks.toArray } = .ok (withBlocks f header blocks) := by
  have hfind : Table.find? { header, blocks := blocks.toArray } Format.headerBlockId =
      some (RangeBuilder.headerBlock f) :=
    @Table.find?_of_mem { header, blocks := blocks.toArray } (RangeBuilder.headerBlock f) hpair
      hheader
  have hformat : Format.ofHeader (RangeBuilder.headerBlock f).data = .ok f := by
    have hread := f.ofHeader_header_append []
    rwa [List.append_nil] at hread
  have hstray : (Table.blockIds { header, blocks := blocks.toArray }).find?
      (! isBlockId f ·) = none := by
    refine List.find?_eq_none.2 fun id hid => ?_
    obtain ⟨block, hb, rfl⟩ := List.mem_map.1 hid
    rw [hids block hb]
    decide
  simp only [ofTable, hfind, hformat, hstray]
  rfl

end RangeFile

namespace RangeBuilder.Holds

open RangeFile

variable {b : RangeBuilder} {groups : List PrefixGroup} {t : Builder} {timestamp : Int64}

/-- The blocks of a finished table are those of a range file. -/
lemma ofTable_finishedBlocks (h : Holds f b groups) (header : Header) :
    ofTable { header, blocks := (finishedBlocks b).toArray } =
      .ok (withBlocks f header (finishedBlocks b)) := by
  refine ofTable_withBlocks header h.pairwise_finishedBlocks ?_ fun block hb => ?_
  · rw [h.finishedBlocks_eq]
    exact List.mem_cons_self
  · rw [h.finishedBlocks_eq] at hb
    rcases List.mem_cons.1 hb with rfl | hb
    · rfl
    · obtain ⟨g, hg, hid⟩ := h.id_eq_of_mem_blocks hb
      rw [hid, isBlockId_blockId (h.division.tablePrefix_le hg)]

lemma find?_group (h : Holds f b groups) (header : Header) {g : PrefixGroup}
    (hg : g ∈ groups) : ∃ block,
      (withBlocks f header (finishedBlocks b)).table.find? (f.blockId g.tablePrefix) =
        some block ∧
      SuffixTable.ofBlock f block = .ok (SuffixTable.ofGroup f g.tablePrefix g.ranges) := by
  obtain ⟨block, hb, hblock⟩ := exists_of_forall₂ h.blocks hg
  refine ⟨block, ?_, hblock.ofBlock_eq (h.division.isGroup g hg)⟩
  rw [← hblock.id_eq]
  refine Table.find?_of_mem h.pairwise_finishedBlocks ?_
  exact List.mem_cons_of_mem _ hb

lemma find?_eq_none (h : Holds f b groups) (header : Header) (hp : p.toNat ≤ f.maxPrefix)
    (hnone : ∀ g ∈ groups, g.tablePrefix ≠ p) :
    (withBlocks f header (finishedBlocks b)).table.find? (f.blockId p) = none := by
  refine Table.find?_eq_none fun block hb => ?_
  rcases List.mem_cons.1 hb with rfl | hb
  · exact UInt32.ne_of_lt (Format.headerBlockId_lt hp)
  · obtain ⟨g, hg, hid⟩ := h.id_eq_of_mem_blocks hb
    rw [hid]
    exact fun heq => hnone g hg (Format.blockId_inj.1 heq)

/-- Every prefix leads to the table of its ranges. -/
lemma prefixTable_eq (h : Holds f b groups) (header : Header) (hp : p.toNat ≤ f.maxPrefix) :
    (withBlocks f header (finishedBlocks b)).prefixTable p =
      .ok (.ofRanges f (rangesIn groups) p) := by
  by_cases hex : ∃ g ∈ groups, g.tablePrefix = p
  · obtain ⟨g, hg, rfl⟩ := hex
    obtain ⟨block, hfind, hread⟩ := h.find?_group header hg
    have hranges := h.division.rangesOfPrefix_eq hg
    have hne := (h.division.isGroup g hg).ne_nil
    rw [PrefixTable.ofRanges_of_ne_nil (by rwa [hranges]), hranges]
    exact prefixTable_of_find? hp hfind hread rfl
  · have hnone : ∀ g ∈ groups, g.tablePrefix ≠ p := fun g hg heq => hex ⟨g, hg, heq⟩
    rw [PrefixTable.ofRanges_of_eq_nil
      (Division.rangesOfPrefix_eq_nil h.division.isGroup hnone)]
    exact prefixTable_of_find?_eq_none hp (h.find?_eq_none header hp hnone)

/-- The blocks give back their ranges one after the other. -/
lemma ranges_eq (h : Holds f b groups) (header : Header) :
    (withBlocks f header (finishedBlocks b)).ranges =
      (rangesIn groups).map fun range => .ok (range.stored f) := by
  have hids : (withBlocks f header (finishedBlocks b)).table.blockIds.filter
      (· ≠ Format.headerBlockId) = groups.map fun g => f.blockId g.tablePrefix := by
    have hmap : (withBlocks f header (finishedBlocks b)).table.blockIds =
        Format.headerBlockId :: groups.map fun g => f.blockId g.tablePrefix := by
      rw [← map_id_blocks h.blocks]
      rfl
    rw [hmap, List.filter_cons_of_neg (by simp)]
    refine List.filter_eq_self.2 fun id hid => ?_
    obtain ⟨g, hg, rfl⟩ := List.mem_map.1 hid
    have hlt := Format.headerBlockId_lt (h.division.tablePrefix_le hg)
    exact decide_eq_true (UInt32.ne_of_lt hlt).symm
  have hgroup : ∀ g ∈ groups,
      (withBlocks f header (finishedBlocks b)).rangesOf (f.blockId g.tablePrefix) =
        g.ranges.map fun range => .ok (range.stored f) := by
    intro g hg
    obtain ⟨block, hfind, hread⟩ := h.find?_group header hg
    exact @rangesOf_of_prefixTable _ (withBlocks f header (finishedBlocks b)) _
      (h.division.isGroup g hg)
      (prefixTable_of_find? (h.division.tablePrefix_le hg) hfind hread rfl)
  rw [ranges, hids, List.flatMap_map, rangesIn, List.map_flatMap]
  exact List.flatMap_congr hgroup

lemma tableCount_eq (h : Holds f b groups) (header : Header) :
    (withBlocks f header (finishedBlocks b)).tableCount =
      ((rangesIn groups).map fun range => f.prefixOf range.start).dedup.length := by
  have hnodup : (groups.map PrefixGroup.tablePrefix).Nodup :=
    List.pairwise_map.2 (h.division.pairwise_prefix.imp UInt32.ne_of_lt)
  have hperm : ((rangesIn groups).map fun range => f.prefixOf range.start).dedup.Perm
      (groups.map PrefixGroup.tablePrefix) := by
    refine (List.perm_ext_iff_of_nodup (List.nodup_dedup _) hnodup).2 fun p => ?_
    rw [List.mem_dedup, List.mem_map, List.mem_map]
    constructor
    · rintro ⟨range, hr, rfl⟩
      obtain ⟨g, hg, hr⟩ := mem_rangesIn.1 hr
      exact ⟨g, hg, ((h.division.isGroup g hg).prefixOf_eq range hr).symm⟩
    · rintro ⟨g, hg, rfl⟩
      have hgroup := h.division.isGroup g hg
      obtain ⟨range, hr⟩ := List.exists_mem_of_ne_nil _ hgroup.ne_nil
      exact ⟨range, mem_rangesIn.2 ⟨g, hg, hr⟩, hgroup.prefixOf_eq range hr⟩
  have hcount : (withBlocks f header (finishedBlocks b)).tableCount = groups.length := by
    rw [h.blocks.length_eq]
    rfl
  rw [hcount, hperm.length_eq, List.length_map]

lemma isFileOf (h : Holds f b groups) (header : Header) :
    IsFileOf (withBlocks f header (finishedBlocks b)) (rangesIn groups) where
  storable _ hr := h.division.storable hr
  pairwise := h.division.pairwise
  prefixTable_eq _ hp := h.prefixTable_eq header hp
  ranges_eq := h.ranges_eq header
  tableCount_eq := h.tableCount_eq header

/-- The image of a finished builder is read as the file of the ranges that the builder holds. -/
theorem ofBytes_image (h : Holds f b groups) (hfin : b.finish = .ok t)
    (hl : (t.image timestamp).length < 2 ^ 64) :
    ∃ r, RangeFile.ofBytes (t.image timestamp) = .ok r ∧ r.format = f ∧
      r.IsFileOf (rangesIn groups) := by
  have hcount : t.blockCount < 2 ^ 32 := by
    have hle := length_groups_le h.division
    have hlt := f.maxPrefix_add_two_lt
    rw [h.blockCount_finish hfin]
    omega
  refine ⟨withBlocks f (t.header timestamp) (finishedBlocks b), ?_, rfl, h.isFileOf _⟩
  rw [RangeFile.ofBytes, Builder.ofBytes_image (h.shared_lt_finish hfin) hcount hl,
    h.sortedBlocks_finish hfin]
  exact h.ofTable_finishedBlocks _

end RangeBuilder.Holds

end CellIndex
