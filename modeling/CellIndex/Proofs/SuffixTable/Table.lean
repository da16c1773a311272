import CellIndex.Proofs.Format.Storable
import CellIndex.Proofs.Search
import CellIndex.Proofs.Sequence
import CellIndex.Proofs.SuffixTable.Shared
import CellIndex.SuffixTable.Basic

/-!
# Suffix tables are read back

Ranges whose lengths fit their records are written as a suffix table (`ofRanges_eq_ok_iff`), and
that table is read as `SuffixTable.ofGroup`: the values that the format keeps and one record for
each range (`ofBlock_of_ofRanges_of_lt`).  An entry gives the range back that its record was made
of, with its value if the values are kept (`entry_ofGroup_of_encodable`).  For this the ranges need
no order, and they may overlap or end in a later prefix.

The groups of a writer are sorted and keep to their prefix.  The entries of their tables are the
ranges as the format stores them (`entries_ofGroup`, `entryAt_ofGroup`).
-/

namespace CellIndex

open Sequence

variable {f : Format} {tablePrefix : UInt32} {group : List CellRange} {range : CellRange}

/-! ## Records -/

namespace Record

/-- The record of a range. -/
def ofRange (f : Format) (range : CellRange) : Record :=
  ⟨f.suffixOf range.start, f.rangeLength range.start range.stop⟩

/-- The record fits the format. -/
def Fits (f : Format) (r : Record) : Prop := r.start < 2 ^ f.suffixBits ∧ r.length ≤ f.maxLength

lemma fits_ofRange (h : range.Storable f) : (ofRange f range).Fits f :=
  ⟨f.suffixOf_lt _, h.inRecord⟩

/-- The bits of a record are whole bytes. -/
lemma pow_recordBytes (f : Format) :
    256 ^ f.recordBytes = 2 ^ f.suffixBits * 2 ^ f.lengthBits := by
  have hbits := f.valid.recordBits_gt
  have hmod := f.valid.recordBits_mod
  have hsum : 8 * f.recordBytes = f.suffixBits + f.lengthBits := by
    rw [Format.recordBytes, Format.lengthBits, Format.suffixBits]
    omega
  rw [← Nat.pow_add, ← hsum]
  exact (Nat.pow_mul 2 8 f.recordBytes).symm

lemma pack_lt {r : Record} (h : r.Fits f) : r.pack f < 256 ^ f.recordBytes := by
  have hlen : r.length < 2 ^ f.lengthBits := by
    have hl := h.2
    have := Nat.two_pow_pos f.lengthBits
    rw [Format.maxLength] at hl
    omega
  have hmul : (r.start + 1) * 2 ^ f.lengthBits ≤ 2 ^ f.suffixBits * 2 ^ f.lengthBits :=
    Nat.mul_le_mul_right _ h.1
  rw [Nat.succ_mul] at hmul
  rw [pow_recordBytes, pack]
  omega

/-- Records one after the other are read back. -/
lemma decodeAll_flatMap_encode {rs : List Record} (h : ∀ r ∈ rs, r.Fits f) :
    decodeAll f (rs.flatMap (encode f)) = rs := by
  have hbytes : rs.flatMap (encode f) =
      (rs.map (pack f)).flatMap (BigEndian.encode f.recordBytes) := by
    rw [List.flatMap_map]
    rfl
  have hcount : (rs.flatMap (encode f)).length / f.recordBytes = (rs.map (pack f)).length := by
    rw [hbytes, BigEndian.length_flatMap_encode]
    exact Nat.mul_div_cancel_left _ f.recordBytes_pos
  have hlt : ∀ n ∈ rs.map (pack f), n < 256 ^ f.recordBytes := by
    intro n hn
    obtain ⟨r, hr, rfl⟩ := List.mem_map.1 hn
    exact pack_lt (h r hr)
  have hd := BigEndian.decodeMany_flatMap_encode hlt []
  rw [List.append_nil] at hd
  rw [decodeAll, hcount, hbytes, hd, List.map_map]
  exact List.map_congr_left (fun r hr => unpack_pack (h r hr).2) |>.trans (List.map_id rs)

/-- The record at a place of a run of bytes. -/
def readAt (f : Format) (bytes : Bytes) (index : Nat) : Record :=
  unpack f (bytes.number (f.recordBytes * index) f.recordBytes)

/-- A record in a run of records is made of the bytes at its place. -/
lemma getElem?_decodeAll {bytes : Bytes} {index : Nat} (h : index < bytes.length / f.recordBytes) :
    (decodeAll f bytes)[index]? = some (readAt f bytes index) := by
  rw [decodeAll, List.getElem?_map, BigEndian.getElem?_decodeMany h, Option.map_some, readAt]

@[simp] lemma length_decodeAll (f : Format) (bytes : Bytes) :
    (decodeAll f bytes).length = bytes.length / f.recordBytes := by
  rw [decodeAll, List.length_map, BigEndian.length_decodeMany]

lemma length_flatMap_encode (f : Format) (rs : List Record) :
    (rs.flatMap (encode f)).length = f.recordBytes * rs.length := by
  have h := BigEndian.length_flatMap_encode f.recordBytes (rs.map (pack f))
  rw [List.flatMap_map, List.length_map] at h
  exact h

end Record

/-! ## Ranges that can be written down -/

namespace CellRange

/-- A record can say the length of the range. -/
def FitsRecord (f : Format) (range : CellRange) : Prop :=
  0 < f.rangeLength range.start range.stop ∧ f.rangeLength range.start range.stop ≤ f.maxLength

instance (f : Format) (range : CellRange) : Decidable (range.FitsRecord f) :=
  inferInstanceAs (Decidable (_ ∧ _))

lemma Storable.fitsRecord (h : range.Storable f) : range.FitsRecord f := ⟨h.length_pos, h.inRecord⟩

/-- The range can be written into the table of a prefix and read back.  It may end in a later
prefix. -/
structure Encodable (f : Format) (tablePrefix : UInt32) (range : CellRange) : Prop where
  /-- It begins where cells of the level do. -/
  isBoundary_start : f.IsBoundary range.start
  /-- It begins in the prefix. -/
  prefixOf_eq : f.prefixOf range.start = tablePrefix
  /-- It ends where cells of the level do. -/
  isBoundary_stop : f.IsBoundary range.stop
  /-- A record can say its length. -/
  fitsRecord : range.FitsRecord f
  /-- The format can store its value, if it stores values and the range has one. -/
  value_le : f.valueBytes ≠ 0 → ∀ value, range.value = some value → value.toNat ≤ f.maxValue

instance (f : Format) (tablePrefix : UInt32) (range : CellRange) :
    Decidable (range.Encodable f tablePrefix) :=
  decidable_of_iff
    (f.IsBoundary range.start ∧ f.prefixOf range.start = tablePrefix ∧ f.IsBoundary range.stop ∧
      range.FitsRecord f ∧
      (f.valueBytes ≠ 0 → range.value.all (·.toNat ≤ f.maxValue) = true))
    ⟨fun ⟨hstart, hp, hstop, hfits, hvalue⟩ => ⟨hstart, hp, hstop, hfits, fun hv value hsome => by
        simpa [hsome] using hvalue hv⟩,
      fun ⟨hstart, hp, hstop, hfits, hvalue⟩ => ⟨hstart, hp, hstop, hfits, fun hv => by
        simpa [Option.all_eq_true] using hvalue hv⟩⟩

lemma Storable.encodable (h : range.Storable f) (hp : f.prefixOf range.start = tablePrefix) :
    range.Encodable f tablePrefix where
  isBoundary_start := h.isBoundary_start
  prefixOf_eq := hp
  isBoundary_stop := h.isBoundary_stop
  fitsRecord := h.fitsRecord
  value_le hv value hvalue := by
    obtain ⟨value', hvalue', hle⟩ := h.value hv
    obtain rfl : value = value' := Option.some.inj (hvalue.symm.trans hvalue')
    exact hle

/-- The end of a range is its length behind its start. -/
lemma Encodable.position_stop (h : range.Encodable f tablePrefix) :
    f.position range.stop = tablePrefix.toNat * 2 ^ f.suffixBits +
      f.suffixOf range.start + f.rangeLength range.start range.stop := by
  rw [← h.prefixOf_eq]
  exact Format.position_stop (Nat.le_of_lt (Nat.lt_of_sub_pos h.fitsRecord.1))

end CellRange

/-- Ranges that can form the suffix table of a prefix. -/
structure IsGroup (f : Format) (tablePrefix : UInt32) (group : List CellRange) : Prop where
  ne_nil : group ≠ []
  storable : ∀ range ∈ group, range.Storable f
  prefixOf_eq : ∀ range ∈ group, f.prefixOf range.start = tablePrefix

lemma IsGroup.encodable (h : IsGroup f tablePrefix group) (hr : range ∈ group) :
    range.Encodable f tablePrefix :=
  (h.storable range hr).encodable (h.prefixOf_eq range hr)

namespace EncodedTable

/-- A range has a record if the record can say its length. -/
lemma recordOf_eq (f : Format) (range : CellRange) :
    recordOf f range = if range.FitsRecord f then .ok (Record.ofRange f range) else
      .error (.invalidRange range
        (.recordLength (f.rangeLength range.start range.stop) f.maxLength)) := by
  have hiff : range.FitsRecord f ↔ ¬ (f.rangeLength range.start range.stop = 0 ∨
      f.maxLength < f.rangeLength range.start range.stop) := by
    rw [CellRange.FitsRecord]
    omega
  simp only [recordOf, hiff, ite_not]
  rfl

lemma recordOf_eq_ok_iff {r : Record} :
    recordOf f range = .ok r ↔ range.FitsRecord f ∧ Record.ofRange f range = r := by
  rw [recordOf_eq]
  split
  · next h => simp [h]
  · next h => simp [h]

lemma recordOf_eq_error_iff {e : Error} :
    recordOf f range = .error e ↔ ¬ range.FitsRecord f ∧ .invalidRange range
      (.recordLength (f.rangeLength range.start range.stop) f.maxLength) = e := by
  rw [recordOf_eq]
  split
  · next h => simp [h]
  · next h => simp [h]

/-- Ranges are written down if their records can say their lengths and their shared data can be
written: the records stand one after the other. -/
lemma ofRanges_eq_ok_iff {table : EncodedTable} :
    ofRanges f tablePrefix group = .ok table ↔ (∀ range ∈ group, range.FitsRecord f) ∧
      SharedData.encode f tablePrefix (valuesOf group) = .ok table.shared ∧
      table.data = (group.map (Record.ofRange f)).flatMap (Record.encode f) := by
  have hmap : (∀ range ∈ group, range.FitsRecord f) →
      group.mapM (recordOf f) = .ok (group.map (Record.ofRange f)) :=
    fun h => mapM_eq_map fun range hr => recordOf_eq_ok_iff.2 ⟨h range hr, rfl⟩
  constructor
  · intro h
    obtain ⟨records, hr, h⟩ := bind_eq_ok.1 h
    obtain ⟨shared, hs, h⟩ := bind_eq_ok.1 h
    obtain rfl : (⟨shared, records.flatMap (Record.encode f)⟩ : EncodedTable) = table :=
      Except.ok.inj h
    have hfits : ∀ range ∈ group, range.FitsRecord f := by
      intro range hrange
      obtain ⟨r, -, hrecord⟩ := exists_of_mapM_eq_ok hr hrange
      exact (recordOf_eq_ok_iff.1 hrecord).1
    obtain rfl : group.map (Record.ofRange f) = records :=
      Except.ok.inj ((hmap hfits).symm.trans hr)
    exact ⟨hfits, hs, rfl⟩
  · rintro ⟨hfits, hs, hdata⟩
    obtain ⟨shared, data⟩ := table
    obtain rfl : data = (group.map (Record.ofRange f)).flatMap (Record.encode f) := hdata
    exact bind_eq_ok.2 ⟨_, hmap hfits, bind_eq_ok.2 ⟨shared, hs, rfl⟩⟩

/-! ## Values -/

/-- A table keeps the values of its ranges if the format has values and every range has one. -/
def KeepsValues (f : Format) (group : List CellRange) : Prop :=
  f.valueBytes ≠ 0 ∧ ∀ range ∈ group, range.value.isSome

instance (f : Format) (group : List CellRange) : Decidable (KeepsValues f group) :=
  inferInstanceAs (Decidable (_ ∧ _))

lemma valuesOf_eq_map (h : ∀ range ∈ group, ∃ value, range.value = some value) :
    valuesOf group = group.map (·.value.getD 0) := by
  have hall : group.mapM CellRange.value = some (group.map (·.value.getD 0)) := by
    induction group with
    | nil => rfl
    | cons range group ih =>
      obtain ⟨value, hv⟩ := h range List.mem_cons_self
      rw [List.mapM_cons, ih fun r hr => h r (List.mem_cons_of_mem _ hr), hv, List.map_cons, hv]
      rfl
  rw [valuesOf, hall]
  rfl

/-- One range without a value is enough for the values of all to be left out. -/
lemma valuesOf_eq_nil (hr : range ∈ group) (hnone : range.value = none) : valuesOf group = [] := by
  have hall : group.mapM CellRange.value = none := by
    induction group with
    | nil => exact absurd hr List.not_mem_nil
    | cons first rest ih =>
      rw [List.mapM_cons]
      rcases List.mem_cons.1 hr with rfl | hr
      · rw [hnone]
        rfl
      · rw [ih hr]
        cases first.value <;> rfl
  rw [valuesOf, hall]
  rfl

/-- Either all ranges have a value, or no value is written. -/
lemma valuesOf_cases (group : List CellRange) :
    ((∀ range ∈ group, range.value.isSome) ∧ valuesOf group = group.map (·.value.getD 0)) ∨
      ((¬ ∀ range ∈ group, range.value.isSome) ∧ valuesOf group = []) := by
  by_cases h : ∀ range ∈ group, range.value.isSome
  · exact Or.inl ⟨h, valuesOf_eq_map fun range hr => Option.isSome_iff_exists.1 (h range hr)⟩
  · refine Or.inr ⟨h, ?_⟩
    push Not at h
    obtain ⟨range, hr, hnone⟩ := h
    exact valuesOf_eq_nil hr (Option.not_isSome_iff_eq_none.1 hnone)

/-- There is at most one value for each range. -/
lemma length_valuesOf_le (group : List CellRange) : (valuesOf group).length ≤ group.length := by
  rcases valuesOf_cases group with ⟨-, h⟩ | ⟨-, h⟩
  · exact Nat.le_of_eq (h ▸ List.length_map _)
  · exact h ▸ Nat.zero_le _

/-- The values of ranges that can be written down fit the format, if the format has values. -/
lemma value_le_of_mem_valuesOf (h : ∀ range ∈ group, range.Encodable f tablePrefix)
    (hv : f.valueBytes ≠ 0) : ∀ value ∈ valuesOf group, value.toNat ≤ f.maxValue := by
  intro value hmem
  rcases valuesOf_cases group with ⟨hall, hvalues⟩ | ⟨-, hvalues⟩
  · rw [hvalues, List.mem_map] at hmem
    obtain ⟨range, hr, rfl⟩ := hmem
    obtain ⟨value, hvalue⟩ := Option.isSome_iff_exists.1 (hall range hr)
    rw [hvalue]
    exact (h range hr).value_le hv value hvalue
  · exact absurd (hvalues ▸ hmem) List.not_mem_nil

lemma exists_ofRanges (h : ∀ range ∈ group, range.Encodable f tablePrefix) :
    ∃ table, ofRanges f tablePrefix group = .ok table := by
  obtain ⟨shared, hs⟩ := @SharedData.exists_encode f tablePrefix _ (value_le_of_mem_valuesOf h)
  exact ⟨⟨shared, _⟩, ofRanges_eq_ok_iff.2 ⟨fun range hr => (h range hr).fitsRecord, hs, rfl⟩⟩

end EncodedTable

namespace CellRange

open EncodedTable

/-- The range as the table of a group gives it back. -/
def keptIn (f : Format) (group : List CellRange) (range : CellRange) : CellRange :=
  if KeepsValues f group then range else range.eraseValue

lemma keptIn_value (f : Format) (group : List CellRange) (range : CellRange) :
    (range.keptIn f group).value = if KeepsValues f group then range.value else none := by
  rw [keptIn]
  split <;> rfl

lemma mk_keptIn_value (f : Format) (group : List CellRange) (range : CellRange) :
    (⟨range.start, range.stop, (range.keptIn f group).value⟩ : CellRange) =
      range.keptIn f group := by
  rw [keptIn]
  split <;> rfl

/-- In a group that a writer has made, the format alone decides which values are kept. -/
lemma keptIn_eq_stored (h : IsGroup f tablePrefix group) (range : CellRange) :
    range.keptIn f group = range.stored f := by
  rw [keptIn, stored]
  by_cases hv : f.valueBytes = 0
  · rw [if_pos hv, if_neg fun hkept => hkept.1 hv]
  · have hkept : KeepsValues f group := by
      refine ⟨hv, fun range hr => Option.isSome_iff_exists.2 ?_⟩
      exact ((h.storable range hr).value hv).imp fun _ hval => hval.1
    rw [if_neg hv, if_pos hkept]

end CellRange

namespace SuffixTable

open EncodedTable SharedData

/-- The suffix table of a group. -/
def ofGroup (f : Format) (tablePrefix : UInt32) (group : List CellRange) : SuffixTable f where
  shared := ⟨tablePrefix, (keptValues f (valuesOf group)).toArray⟩
  records := (group.map (Record.ofRange f)).toArray

@[simp] lemma tablePrefix_ofGroup (f : Format) (tablePrefix : UInt32) (group : List CellRange) :
    (ofGroup f tablePrefix group).tablePrefix = tablePrefix := rfl

/-- There is no value, one, or one for each range. -/
lemma length_keptValues (f : Format) (group : List CellRange) :
    (keptValues f (valuesOf group)).length ≤ 1 ∨
      (keptValues f (valuesOf group)).length = group.length := by
  rw [keptValues]
  split
  · exact Or.inl (Nat.zero_le 1)
  · rcases valuesOf_cases group with ⟨-, h⟩ | ⟨-, h⟩
    · refine (length_storedValues (valuesOf group)).imp_right fun hs => ?_
      rw [hs, h, List.length_map]
    · rw [h]
      exact Or.inl (Nat.zero_le 1)

/-- What has been written for ranges is read as their table, if a word can count their values. -/
lemma ofBlock_of_ofRanges_of_lt (hne : group ≠ []) {table : EncodedTable} (id : UInt32)
    (htable : EncodedTable.ofRanges f tablePrefix group = .ok table)
    (hcount : (keptValues f (valuesOf group)).length < 2 ^ 32) :
    ofBlock f ⟨id, table.shared, table.data⟩ = .ok (ofGroup f tablePrefix group) := by
  obtain ⟨hranges, hs, htable⟩ := ofRanges_eq_ok_iff.1 htable
  have hfits : ∀ r ∈ group.map (Record.ofRange f), r.Fits f := by
    intro r hr
    obtain ⟨range, hrange, rfl⟩ := List.mem_map.1 hr
    exact ⟨f.suffixOf_lt _, (hranges range hrange).2⟩
  -- the data is a whole number of records, and not empty
  have hpos : 0 < f.recordBytes * group.length :=
    Nat.mul_pos f.recordBytes_pos (List.length_pos_iff.2 hne)
  have hdata : ((group.map (Record.ofRange f)).flatMap (Record.encode f)).length =
      f.recordBytes * group.length := by
    rw [Record.length_flatMap_encode, List.length_map]
  have hsize : ¬ (f.recordBytes * group.length = 0 ∨
      f.recordBytes * group.length % f.recordBytes ≠ 0) := by
    rw [Nat.mul_mod_right]
    omega
  -- there is at most one value, or one for each record
  have hvalues := length_keptValues f group
  rw [ofBlock, decode_of_encode_of_lt hs hcount, htable]
  simp only [hdata, if_neg hsize, Nat.mul_div_cancel_left _ f.recordBytes_pos, List.size_toArray,
    Record.decodeAll_flatMap_encode hfits]
  exact if_neg (by omega)

/-- What has been written for a group is read as its table. -/
theorem ofBlock_of_ofRanges (h : IsGroup f tablePrefix group) {table : EncodedTable} (id : UInt32)
    (htable : EncodedTable.ofRanges f tablePrefix group = .ok table)
    (hl : table.shared.length < 2 ^ 32) :
    ofBlock f ⟨id, table.shared, table.data⟩ = .ok (ofGroup f tablePrefix group) :=
  ofBlock_of_ofRanges_of_lt h.ne_nil id htable <|
    Nat.lt_of_le_of_lt (length_keptValues_le_of_encode (ofRanges_eq_ok_iff.1 htable).2.1) hl

/-! ## The entries of a table -/

/-- The value of a range is found at the place of the range, if the values are kept. -/
lemma value?_ofGroup (f : Format) (tablePrefix : UInt32) {index : Nat}
    (hr : group[index]? = some range) :
    (ofGroup f tablePrefix group).shared.value? index = (range.keptIn f group).value := by
  have hnone : value? ⟨tablePrefix, ([] : List UInt32).toArray⟩ index = none := by simp [value?]
  rw [CellRange.keptIn_value, ofGroup, keptValues]
  by_cases hv : f.valueBytes = 0
  · rw [if_pos hv, if_neg fun hkept => hkept.1 hv, hnone]
  · rw [if_neg hv]
    rcases valuesOf_cases group with ⟨hall, hvalues⟩ | ⟨hall, hvalues⟩
    · obtain ⟨value, hvalue⟩ := Option.isSome_iff_exists.1 (hall range (List.mem_of_getElem? hr))
      have hget : (valuesOf group)[index]? = some value := by
        rw [hvalues, List.getElem?_map, hr, Option.map_some, hvalue]
        rfl
      rw [if_pos ⟨hv, hall⟩, hvalue]
      exact value?_storedValues tablePrefix hget
    · rw [if_neg fun hkept => hall hkept.2, hvalues]
      exact hnone

/-- A record of a table stands for the range that it was made of. -/
lemma entry_ofGroup_of_encodable (h : range.Encodable f tablePrefix) {index : Nat}
    (hr : group[index]? = some range) :
    (ofGroup f tablePrefix group).entry index (Record.ofRange f range) =
      ⟨index, range.keptIn f group⟩ := by
  have hstart : f.cellAt (tablePrefix.toNat * 2 ^ f.suffixBits + f.suffixOf range.start) =
      range.start := by
    rw [← h.prefixOf_eq, ← f.position_eq, h.isBoundary_start.cellAt_position]
  have hstop : f.cellAt (tablePrefix.toNat * 2 ^ f.suffixBits + f.suffixOf range.start +
      f.rangeLength range.start range.stop) = range.stop := by
    rw [← h.position_stop, h.isBoundary_stop.cellAt_position]
  rw [entry, tablePrefix_ofGroup, value?_ofGroup f tablePrefix hr, Record.ofRange, hstart, hstop,
    CellRange.mk_keptIn_value]

lemma entry_ofGroup (h : IsGroup f tablePrefix group) {index : Nat}
    (hr : group[index]? = some range) :
    (ofGroup f tablePrefix group).entry index (Record.ofRange f range) =
      ⟨index, range.stored f⟩ := by
  rw [entry_ofGroup_of_encodable (h.encodable (List.mem_of_getElem? hr)) hr,
    CellRange.keptIn_eq_stored h]

lemma getElem?_records (f : Format) (tablePrefix : UInt32) (group : List CellRange) (index : Nat) :
    (ofGroup f tablePrefix group).records[index]? = group[index]?.map (Record.ofRange f) := by
  rw [ofGroup, List.getElem?_toArray, List.getElem?_map]

/-- The entries of a table are the ranges of the group in their order. -/
theorem entries_ofGroup (h : IsGroup f tablePrefix group) :
    (ofGroup f tablePrefix group).entries =
      group.mapIdx fun index range => ⟨index, range.stored f⟩ := by
  apply List.ext_getElem?
  intro index
  have hget : (ofGroup f tablePrefix group).records.toList[index]? =
      group[index]?.map (Record.ofRange f) := by
    rw [Array.getElem?_toList, getElem?_records]
  rw [entries, List.getElem?_mapIdx, List.getElem?_mapIdx, hget]
  cases hr : group[index]? with
  | none => rfl
  | some range => exact congrArg some (entry_ofGroup h hr)

/-- The ranges of a table are those of the group. -/
lemma map_range_entries (h : IsGroup f tablePrefix group) :
    (ofGroup f tablePrefix group).entries.map Entry.range = group.map (·.stored f) := by
  apply List.ext_getElem?
  intro index
  rw [entries_ofGroup h, List.getElem?_map, List.getElem?_mapIdx, List.getElem?_map,
    Option.map_map]
  rfl

/-- The entry at a place of a table is the range that stood at that place. -/
lemma entryAt_ofGroup_of_encodable (h : ∀ range ∈ group, range.Encodable f tablePrefix)
    (index : Nat) :
    (ofGroup f tablePrefix group).entryAt index =
      match group[index]? with
      | some range => .ok ⟨index, range.keptIn f group⟩
      | none => .error (.indexOutOfBounds index group.length) := by
  rw [entryAt, getElem?_records]
  cases hr : group[index]? with
  | none => simp [ofGroup]
  | some range =>
    exact congrArg Except.ok (entry_ofGroup_of_encodable (h range (List.mem_of_getElem? hr)) hr)

/-- The entry at a place of the table of a group is the range at that place of the group. -/
theorem entryAt_ofGroup (h : IsGroup f tablePrefix group) (index : Nat) :
    (ofGroup f tablePrefix group).entryAt index =
      match group[index]? with
      | some range => .ok ⟨index, range.stored f⟩
      | none => .error (.indexOutOfBounds index group.length) := by
  simp only [entryAt_ofGroup_of_encodable fun range hr => h.encodable hr,
    CellRange.keptIn_eq_stored h]

end SuffixTable

end CellIndex
