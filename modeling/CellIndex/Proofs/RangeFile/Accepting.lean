import CellIndex.Proofs.RangeFile.Offending
import CellIndex.Proofs.RangeFile.Session

/-!
# What a writer accepts

Behind the checks nothing can fail but one: the shared data of a table may be longer than its length
field can say (`SharedFits`).  The records and values of checked ranges fit their widths
(`append_encode`, `append_value`), the table of a group can be written (`exists_ofRanges`), and its
block has a number of its own (`Holds.exists_add`), as has the header block (`Holds.exists_finish`).
-/

namespace CellIndex

open Sequence

variable {f : Format} {tablePrefix : UInt32} {group : List CellRange}

/-- No suffix table of the ranges has shared data of more bytes than a word can say. -/
def SharedFits (f : Format) (ranges : List CellRange) : Prop :=
  ∀ p shared, SharedData.encode f p (EncodedTable.valuesOf (rangesOfPrefix f ranges p)) =
    .ok shared → shared.length < 2 ^ 32

lemma SharedData.length_le_of_encode {values : List UInt32} {shared : Bytes}
    (h : SharedData.encode f tablePrefix values = .ok shared) :
    shared.length ≤ 8 + 4 * values.length := by
  rcases encode_eq_ok h with ⟨-, rfl⟩ | ⟨-, -, -, rfl⟩
  · rw [BigEndian.length_encode]
    omega
  · have hbytes : f.valueBytes ≤ 4 := f.valid.valueBytes_le
    have hmul := Nat.mul_le_mul hbytes (length_storedValues_le values)
    rw [List.length_append, length_valueSection, BigEndian.length_encode]
    omega

/-- Only a batch of very many ranges has shared data that is too long. -/
lemma sharedFits_of_length {ranges : List CellRange} (h : ranges.length < 2 ^ 29) :
    SharedFits f ranges := by
  intro p shared hencode
  have hshared := SharedData.length_le_of_encode hencode
  have hvalues := EncodedTable.length_valuesOf_le (rangesOfPrefix f ranges p)
  have hranges : (rangesOfPrefix f ranges p).length ≤ ranges.length := List.length_filter_le ..
  omega

/-! ## Numbers that fit their widths -/

/-- A number that fits its width is appended. -/
lemma Bytes.append_eq_ok (bytes : Bytes) {width n : Nat} (hw : width ≤ 8) (h : n < 256 ^ width) :
    Bytes.append bytes width n = .ok (bytes ++ BigEndian.encode width n) := by
  rw [Bytes.append, if_neg (Nat.not_lt.2 hw),
    if_neg (Nat.not_lt.2 ((Bytes.le_limit_iff hw).2 h))]

/-- The record of a checked range is written as a number of its width. -/
lemma Record.append_encode {r : Record} (bytes : Bytes) (h : r.Fits f) :
    Bytes.append bytes f.recordBytes (r.pack f) = .ok (bytes ++ r.encode f) :=
  Bytes.append_eq_ok bytes f.recordBytes_le (Record.pack_lt h)

/-- The value of a checked range is written as a number of its width. -/
lemma SharedData.append_value {value : UInt32} (bytes : Bytes) (h : value.toNat ≤ f.maxValue) :
    Bytes.append bytes f.valueBytes value.toNat =
      .ok (bytes ++ BigEndian.encode f.valueBytes value.toNat) := by
  have hle : f.valueBytes ≤ 4 := f.valid.valueBytes_le
  exact Bytes.append_eq_ok bytes (by omega) (Nat.lt_of_le_of_lt h f.maxValue_lt)

/-! ## The table of a group -/

/-- The suffix table of a group can be written. -/
lemma IsGroup.exists_ofRanges (h : IsGroup f tablePrefix group) :
    ∃ table, EncodedTable.ofRanges f tablePrefix group = .ok table ∧
      SharedData.encode f tablePrefix (EncodedTable.valuesOf group) = .ok table.shared := by
  obtain ⟨table, htable⟩ := EncodedTable.exists_ofRanges fun range hr => h.encodable hr
  exact ⟨table, htable, (EncodedTable.ofRanges_eq_ok_iff.1 htable).2.1⟩

/-! ## Blocks -/

namespace RangeBuilder

variable {b b' : RangeBuilder} {groups : List PrefixGroup} {batch : List CellRange} {e : Error}

/-- The number of a group's block is new if no group has had its prefix. -/
lemma Stores.blockId_notMem (h : Stores f b groups)
    (hnew : ∀ g ∈ groups, g.tablePrefix ≠ tablePrefix) :
    f.blockId tablePrefix ∉ b.tables.blocks.map Block.id := by
  rw [map_id_blocks h.blocks, List.mem_map]
  rintro ⟨g, hg, hid⟩
  exact hnew g hg (Format.blockId_inj.1 hid)

/-- A group with a new prefix is added, unless its shared data is too long. -/
lemma Stores.exists_addGroup (h : Stores f b groups)
    (hgroup : IsGroup f (PrefixGroup.ofRanges f group).tablePrefix group)
    (hnew : ∀ g ∈ groups, g.tablePrefix ≠ (PrefixGroup.ofRanges f group).tablePrefix)
    (hshared : ∀ shared, SharedData.encode f (PrefixGroup.ofRanges f group).tablePrefix
      (EncodedTable.valuesOf group) = .ok shared → shared.length < 2 ^ 32) :
    ∃ b', b.addGroup group = .ok b' := by
  obtain rfl := h.format_eq
  obtain ⟨table, htable, hencode⟩ := hgroup.exists_ofRanges
  cases group with
  | nil => exact absurd rfl hgroup.ne_nil
  | cons first rest =>
    have hblock : tableBlock b.format (b.format.prefixOf first.start) (first :: rest) =
        .ok ⟨b.format.blockId (b.format.prefixOf first.start), table.shared, table.data⟩ :=
      map_eq_ok.2 ⟨table, htable, rfl⟩
    obtain ⟨tables, htables⟩ := @Builder.exists_add b.tables
      ⟨b.format.blockId (b.format.prefixOf first.start), table.shared, table.data⟩
      (h.blockId_notMem hnew) (hshared _ hencode)
    exact ⟨_, bind_eq_ok.2 ⟨_, hblock, bind_eq_ok.2 ⟨tables, htables, rfl⟩⟩⟩

/-- The groups that continue a division are added one after the other. -/
lemma Stores.exists_foldlM_addGroup {cut : List (List CellRange)} (h : Stores f b groups)
    (hdiv : Division f (groups ++ cut.map (PrefixGroup.ofRanges f)))
    (hshared : ∀ group ∈ cut, ∀ shared,
      SharedData.encode f (PrefixGroup.ofRanges f group).tablePrefix
        (EncodedTable.valuesOf group) = .ok shared → shared.length < 2 ^ 32) :
    ∃ b', cut.foldlM RangeBuilder.addGroup b = .ok b' := by
  -- on the groups that are still to come
  induction cut generalizing b groups with
  | nil => exact ⟨b, rfl⟩
  | cons group cut ih =>
    have hmem : PrefixGroup.ofRanges f group ∈
        groups ++ (group :: cut).map (PrefixGroup.ofRanges f) := by simp
    have hgroup := hdiv.isGroup _ hmem
    rw [PrefixGroup.ranges_ofRanges] at hgroup
    have hnew : ∀ g ∈ groups, g.tablePrefix ≠ (PrefixGroup.ofRanges f group).tablePrefix :=
      fun g hg => UInt32.ne_of_lt
        ((List.pairwise_append.1 hdiv.pairwise_prefix).2.2 g hg _ List.mem_cons_self)
    obtain ⟨b₁, hb₁⟩ := h.exists_addGroup hgroup hnew (hshared group List.mem_cons_self)
    have h₁ := (h.addGroup hgroup.ne_nil hb₁).1
    obtain ⟨b', hb'⟩ := ih h₁ (by simpa using hdiv)
      fun g hg => hshared g (List.mem_cons_of_mem _ hg)
    exact ⟨b', by rw [List.foldlM_cons, bind_eq_ok]; exact ⟨b₁, hb₁, hb'⟩⟩

/-- The groups of a good batch are the tables of its ranges. -/
lemma GoodBatch.rangesOfPrefix_eq {lastPrefix : Option UInt32} {lastStop : Option CellId}
    (h : GoodBatch f lastPrefix lastStop batch) (hgroup : group ∈ RangeBuilder.groups f batch) :
    rangesOfPrefix f batch (PrefixGroup.ofRanges f group).tablePrefix = group := by
  have hmem : PrefixGroup.ofRanges f group ∈ prefixGroups f batch := List.mem_map_of_mem hgroup
  have hranges := (division_of_goodBatch h).rangesOfPrefix_eq hmem
  rwa [rangesIn_prefixGroups, PrefixGroup.ranges_ofRanges] at hranges

/-- A good batch is added, if no shared data is too long. -/
lemma Holds.exists_add (h : Holds f b groups) (hbatch : GoodBatch f b.lastPrefix b.lastStop batch)
    (hshared : SharedFits f batch) : ∃ b', b.add batch = .ok b' := by
  obtain ⟨b', hb'⟩ := h.toStores.exists_foldlM_addGroup (h.division_append hbatch)
    fun group hgroup shared hencode =>
      hshared _ shared (by rwa [hbatch.rangesOfPrefix_eq hgroup])
  exact ⟨_, (add_eq_ok_iff h.format_eq).2 ⟨hbatch, b', hb', rfl⟩⟩

/-- The header block can always be added. -/
lemma Holds.exists_finish (h : Holds f b groups) : ∃ t, b.finish = .ok t := by
  refine Builder.exists_add ?_ (Nat.two_pow_pos 32)
  rw [map_id_blocks h.blocks, List.mem_map]
  rintro ⟨g, hg, hid⟩
  exact UInt32.ne_of_lt (Format.headerBlockId_lt (h.division.tablePrefix_le hg)) hid.symm

end RangeBuilder

end CellIndex
