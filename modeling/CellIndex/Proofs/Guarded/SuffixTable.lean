import CellIndex.Proofs.Guarded.Basic
import CellIndex.Proofs.SuffixTable.Table

/-!
# Reading suffix tables in guarded steps

A suffix table stays in its bytes: records and values are read where they stand when they are asked
for.  Nothing is known of the records but that they are made of bits of their bytes, so they need
not be sorted and may overlap.  A look-up still subtracts no larger number from a smaller one, since
the search has seen the record that it ends at (`SuffixView.Shows.find_eq`), and the bounds of a
range fit a word since the bits of a prefix, a suffix and a length do
(`SuffixView.Shows.entry_eq`).
-/

namespace CellIndex

variable {f : Format} {bytes : Bytes} {index n : Nat} {id : CellId}

/-- Whatever the bytes of a record are, its bits fit. -/
lemma Record.fits_unpack (h : n < 256 ^ f.recordBytes) : (unpack f n).Fits f := by
  have hp := Nat.two_pow_pos f.lengthBits
  have hlen := Nat.mod_lt n hp
  rw [pow_recordBytes, Nat.mul_comm] at h
  refine ⟨Nat.div_lt_of_lt_mul h, ?_⟩
  rw [Format.maxLength]
  exact Nat.le_sub_one_of_lt hlen

namespace Guarded

/-! ## Shared data -/

/-- Shared data whose values are still in their bytes. -/
structure SharedView where
  /-- The prefix of all cells in the table. -/
  tablePrefix : UInt32
  /-- The number of values. -/
  count : Nat
  /-- The bytes, prefix and number of values included. -/
  bytes : Bytes

/-- Reads shared data. -/
def readShared (f : Format) (bytes : Bytes) : Guarded SharedView :=
  match bytes.read 0 4 with
  | .error _ => returns (.error (.corrupt (.sharedSize bytes.length)))
  | .ok tablePrefix => do
    let count ← if 0 < f.valueBytes ∧ 8 < bytes.length then returns (bytes.read 4 4) else pure 0
    let needed := (checked 64 (f.valueBytes * count)).bind fun n => checked 64 (n + 8)
    if 0 < count ∧ ¬ needed.any (· ≤ bytes.length) then
      returns (.error (.corrupt (.sharedValues (UInt32.ofNat tablePrefix) count bytes.length)))
    else pure { tablePrefix := UInt32.ofNat tablePrefix, count, bytes }

namespace SharedView

/-- The value at a place. -/
def valueAt (f : Format) (v : SharedView) (index : Nat) : Guarded (Option UInt32) := do
  let skip ← product 64 f.valueBytes index
  let offset ← sum 64 8 skip
  let value ← returns (v.bytes.read offset f.valueBytes)
  pure (some (UInt32.ofNat value))

/-- The value of the range at `index`: a single value belongs to every range. -/
def value (f : Format) (v : SharedView) (index : Nat) : Guarded (Option UInt32) :=
  if v.count = 0 then pure none
  else if v.count = 1 then v.valueAt f 0
  else if v.count ≤ index then pure none
  else v.valueAt f index

/-- The view stands for shared data: all values lie in its bytes. -/
structure Shows (f : Format) (v : SharedView) (s : SharedData) : Prop where
  tablePrefix_eq : v.tablePrefix = s.tablePrefix
  values_eq : s.values =
    ((BigEndian.decodeMany f.valueBytes v.count (v.bytes.drop 8)).map UInt32.ofNat).toArray
  inBytes : v.count = 0 ∨ 8 + f.valueBytes * v.count ≤ v.bytes.length
  length_lt : v.bytes.length < 2 ^ 64

variable {v : SharedView} {s : SharedData}

lemma Shows.size_eq (h : v.Shows f s) : s.values.size = v.count := by
  rw [h.values_eq, List.size_toArray, List.length_map, BigEndian.length_decodeMany]

lemma Shows.valueAt_eq (h : v.Shows f s) (hi : index < v.count) :
    v.valueAt f index = pure s.values[index]? := by
  have hbytes : f.valueBytes ≤ 4 := f.valid.valueBytes_le
  have hin := h.inBytes.resolve_left (Nat.ne_of_gt (Nat.zero_lt_of_lt hi))
  have hlen := h.length_lt
  have hnext : f.valueBytes * index + f.valueBytes ≤ f.valueBytes * v.count := by
    rw [← Nat.mul_succ]
    exact Nat.mul_le_mul_left _ hi
  rw [valueAt, product_eq (by omega), pure_bind, sum_eq (by omega), pure_bind,
    read_eq (by omega) (by omega), returns_ok, pure_bind, h.values_eq, List.getElem?_toArray,
    List.getElem?_map, BigEndian.getElem?_decodeMany hi, Option.map_some, Bytes.number_drop]

/-- Every value is read inside the bytes. -/
lemma Shows.value_eq (h : v.Shows f s) (index : Nat) :
    v.value f index = pure (s.value? index) := by
  rw [value, SharedData.value?, h.size_eq]
  by_cases h0 : v.count = 0
  · rw [if_pos h0, if_neg (by omega), Array.getElem?_eq_none (by rw [h.size_eq]; omega)]
  · rw [if_neg h0]
    by_cases h1 : v.count = 1
    · rw [if_pos h1, if_pos h1, h.valueAt_eq (by omega)]
    · rw [if_neg h1, if_neg h1]
      by_cases hi : v.count ≤ index
      · rw [if_pos hi, Array.getElem?_eq_none (by rwa [h.size_eq])]
      · rw [if_neg hi, h.valueAt_eq (Nat.not_le.1 hi)]

end SharedView

lemma any_checked_iff {size length : Nat} (hlen : length < 2 ^ 64) :
    ¬ ((checked 64 size).bind fun n => checked 64 (n + 8)).any (· ≤ length) ↔
      length < 8 + size := by
  rw [← Nat.not_le, Option.any_eq_true]
  refine not_congr ⟨?_, fun hle => ?_⟩
  · rintro ⟨n, hn, hle⟩
    rw [decide_eq_true_eq] at hle
    rw [checked_bind_eq_some_iff (Nat.lt_of_le_of_lt hle hlen)] at hn
    omega
  · exact ⟨size + 8, (checked_bind_eq_some_iff (by omega)).2 rfl, decide_eq_true (by omega)⟩

/-- Shared data is read in guarded steps. -/
lemma readShared_mirrors (f : Format) (hlen : bytes.length < 2 ^ 64) :
    Mirrors (SharedView.Shows f) (readShared f bytes) (SharedData.decode f bytes) := by
  rw [readShared, SharedData.decode]
  by_cases h4 : bytes.length < 4
  · have hread : bytes.read 0 4 =
        .error (.invalidArgument (.readPastEnd 4 0 bytes.length)) := by
      rw [Bytes.read, if_neg (by decide), if_pos (by omega)]
    rw [hread, if_pos h4]
    exact .error _
  · rw [read_eq (by decide) (by omega), if_neg h4]
    by_cases hvalues : 0 < f.valueBytes ∧ 8 < bytes.length
    · have hcount := read_eq (show 4 ≤ 8 by decide) (show 4 + 4 ≤ bytes.length by omega)
      simp only [if_pos hvalues, hcount, returns_ok, pure_bind, any_checked_iff hlen]
      rw [if_neg (show ¬ (f.valueBytes = 0 ∨ bytes.length ≤ 8) by omega)]
      split
      · exact .error _
      · next hfit =>
        refine .ok ⟨rfl, rfl, ?_, hlen⟩
        simp only
        omega
    · simp only [if_neg hvalues, pure_bind, Nat.lt_irrefl, false_and, if_false]
      rw [if_pos (by omega)]
      exact .ok ⟨rfl, rfl, .inl rfl, hlen⟩

/-! ## Records -/

/-- A suffix table whose records are still in their bytes. -/
structure SuffixView where
  /-- Prefix and values. -/
  shared : SharedView
  /-- The bytes of the records. -/
  records : Bytes
  /-- The number of records. -/
  count : Nat

/-- Reads the suffix table in a block. -/
def readSuffixTable (f : Format) (block : Block) : Guarded SuffixView := do
  let shared ← readShared f block.shared
  let size := block.data.length
  let rest ← remainder size f.recordBytes
  if size = 0 ∨ rest ≠ 0 then
    returns (.error (.corrupt (.recordSize block.id size f.recordBytes)))
  else
    let count := size / f.recordBytes
    if 1 < shared.count ∧ shared.count ≠ count then
      returns (.error (.corrupt (.valueCount block.id count shared.count)))
    else pure { shared, records := block.data, count }

/-- The upper bits of an id. -/
def readPrefix (f : Format) (id : CellId) : Guarded UInt32 := do
  let bits ← difference 64 f.prefixBits
  let upper ← shiftRight id.toNat bits
  pure (UInt32.ofNat upper)

/-- The lower significant bits of an id. -/
def readSuffix (f : Format) (id : CellId) : Guarded Nat := do
  let bits ← sum 32 f.tailBits 1
  let position ← shiftRight id.toNat bits
  pure (position % 2 ^ f.suffixBits)

namespace SuffixView

/-- The record at a place. -/
def record (f : Format) (v : SuffixView) (index : Nat) : Guarded Record := do
  let offset ← product 64 index f.recordBytes
  let value ← returns (v.records.read offset f.recordBytes)
  let bits ← difference f.params.recordBits.toNat f.suffixBits
  let start ← shiftRight value bits
  pure { start, length := value % 2 ^ bits }

/-- The range that a record stands for.  The bits of a position that its cell has no room for are
shifted out, which is no fault. -/
def entry (f : Format) (v : SuffixView) (index : Nat) (r : Record) : Guarded Entry := do
  let base ← product 64 v.shared.tablePrefix.toNat (2 ^ f.suffixBits)
  let start ← sum 64 base r.start
  let stop ← sum 64 start r.length
  let value ← v.shared.value f index
  pure { index, range := { start := f.cellAt start, stop := f.cellAt stop, value } }

/-- The range that holds a cell. -/
def find (f : Format) (v : SuffixView) (id : CellId) : Guarded (Option Entry) := do
  let idPrefix ← readPrefix f id
  if idPrefix ≠ v.shared.tablePrefix then pure none
  else do
    let target ← readSuffix f id
    let border ← search (fun i => (fun r => decide (r.start ≤ target)) <$> v.record f i) 0 v.count
    match border with
    | 0 => pure none
    | index + 1 => do
      let r ← v.record f index
      let distance ← difference target r.start
      if distance < r.length then some <$> v.entry f index r else pure none

/-- The range at a place of the table. -/
def entryAt (f : Format) (v : SuffixView) (index : Nat) : Guarded Entry :=
  if v.count ≤ index then returns (.error (.indexOutOfBounds index v.count))
  else do
    let r ← v.record f index
    v.entry f index r

/-- The view stands for a suffix table: its records are read as they are asked for. -/
structure Shows (f : Format) (v : SuffixView) (t : SuffixTable f) : Prop where
  shared : v.shared.Shows f t.shared
  records_eq : t.records = (Record.decodeAll f v.records).toArray
  count_eq : v.count = v.records.length / f.recordBytes
  length_lt : v.records.length < 2 ^ 64

end SuffixView

/-- A suffix table is read in guarded steps. -/
lemma readSuffixTable_mirrors (f : Format) {block : Block} (hshared : block.shared.length < 2 ^ 64)
    (hdata : block.data.length < 2 ^ 64) :
    Mirrors (SuffixView.Shows f) (readSuffixTable f block) (SuffixTable.ofBlock f block) := by
  rw [readSuffixTable, SuffixTable.ofBlock]
  rcases readShared_mirrors f hshared with ⟨e, hread, hdecode⟩ | ⟨v, s, hread, hdecode, hv⟩
  · rw [hread, hdecode]
    exact .error _
  · simp only [hread, hdecode, pure_bind, remainder_eq f.recordBytes_pos, hv.size_eq]
    split
    · exact .error _
    · split
      · exact .error _
      · exact .ok ⟨hv, rfl, rfl, hdata⟩

lemma readPrefix_eq (f : Format) (id : CellId) : readPrefix f id = pure (f.prefixOf id) := by
  have hle := f.prefixBits_le
  have hge : 3 ≤ f.prefixBits := f.valid.prefixBits_ge
  rw [readPrefix, difference_eq (by omega), pure_bind, shiftRight_eq (by omega), pure_bind,
    Format.prefixOf]

lemma readSuffix_eq (f : Format) (id : CellId) : readSuffix f id = pure (f.suffixOf id) := by
  have hbits := f.bits_eq
  have hge : 3 ≤ f.prefixBits := f.valid.prefixBits_ge
  rw [readSuffix, sum_eq (by omega), pure_bind, shiftRight_eq (by omega), pure_bind,
    Format.suffixOf, Format.position]

namespace SuffixView

variable {v : SuffixView} {t : SuffixTable f} {r : Record}

lemma Shows.size_eq (h : v.Shows f t) : t.records.size = v.count := by
  rw [h.records_eq, List.size_toArray, Record.length_decodeAll, h.count_eq]

/-- The record at a place is made of the bytes there. -/
lemma Shows.getElem?_records (h : v.Shows f t) (hi : index < v.count) :
    t.records[index]? = some (Record.readAt f v.records index) := by
  rw [h.count_eq] at hi
  rw [h.records_eq, List.getElem?_toArray, Record.getElem?_decodeAll hi]

lemma Shows.lt_count (h : v.Shows f t) (hr : t.records[index]? = some r) : index < v.count := by
  rw [← h.size_eq]
  exact (Array.getElem?_eq_some_iff.1 hr).1

/-- A record is read inside the bytes. -/
lemma Shows.record_eq (h : v.Shows f t) (hr : t.records[index]? = some r) :
    v.record f index = pure r := by
  have hi := h.lt_count hr
  rw [h.getElem?_records hi] at hr
  obtain rfl := Option.some.inj hr
  have hlen := h.length_lt
  have hbits : f.suffixBits < f.params.recordBits.toNat := f.valid.recordBits_gt
  have hbits64 := f.valid.recordBits_le
  have hsuffix : 0 < f.suffixBits := f.valid.suffixBits_pos
  have hwidth := f.recordBytes_le
  have hend : index * f.recordBytes + f.recordBytes ≤ v.records.length := by
    rw [h.count_eq] at hi
    calc index * f.recordBytes + f.recordBytes = (index + 1) * f.recordBytes := by
          rw [Nat.succ_mul]
      _ ≤ v.records.length / f.recordBytes * f.recordBytes := Nat.mul_le_mul_right _ hi
      _ ≤ v.records.length := Nat.div_mul_le_self ..
  rw [record, product_eq (by omega), pure_bind, read_eq hwidth hend, returns_ok, pure_bind,
    difference_eq (Nat.le_of_lt hbits), pure_bind, shiftRight_eq (by omega), pure_bind,
    Nat.mul_comm index]
  rfl

/-- The bits of a record fit, whatever they are. -/
lemma Shows.fits (h : v.Shows f t) (hr : t.records[index]? = some r) : r.Fits f := by
  rw [h.getElem?_records (h.lt_count hr)] at hr
  obtain rfl := Option.some.inj hr
  exact Record.fits_unpack (Bytes.number_lt ..)

/-- The bounds of a range fit a word: prefix and suffix have at most 63 bits together, and so has a
length. -/
lemma bounds_lt {tablePrefix : Nat} (hp : tablePrefix ≤ f.maxPrefix) (hr : r.Fits f) :
    tablePrefix * 2 ^ f.suffixBits + r.start + r.length < 2 ^ 64 := by
  have hdata := f.dataBits_le
  have hrecord := f.valid.recordBits_le
  have hsuffix : 0 < f.suffixBits := f.valid.suffixBits_pos
  have hlength : f.lengthBits ≤ 63 := by
    rw [Format.lengthBits]
    omega
  have hmul : (tablePrefix + 1) * 2 ^ f.suffixBits ≤ 2 ^ f.dataBits := by
    rw [Format.dataBits, Nat.pow_add]
    have := Nat.two_pow_pos f.prefixBits
    rw [Format.maxPrefix] at hp
    exact Nat.mul_le_mul_right _ (by omega)
  have hposition : 2 ^ f.dataBits ≤ 2 ^ 63 := Nat.pow_le_pow_right (by decide) hdata
  have hlen : 2 ^ f.lengthBits ≤ 2 ^ 63 := Nat.pow_le_pow_right (by decide) hlength
  have hstart := hr.1
  have hmax := hr.2
  rw [Format.maxLength] at hmax
  rw [Nat.succ_mul] at hmul
  omega

lemma Shows.entry_eq (h : v.Shows f t) (hp : t.tablePrefix.toNat ≤ f.maxPrefix) (hr : r.Fits f) :
    v.entry f index r = pure (t.entry index r) := by
  have hprefix : v.shared.tablePrefix = t.tablePrefix := h.shared.tablePrefix_eq
  have hlt := bounds_lt hp hr
  rw [entry, hprefix, product_eq (by omega), pure_bind, sum_eq (by omega), pure_bind,
    sum_eq hlt, pure_bind, h.shared.value_eq, pure_bind]
  rfl

/-- A look-up never subtracts more than there is: the record that the search ends at is one that it
has seen begin by the suffix, in whatever order the records are. -/
lemma Shows.find_eq (h : v.Shows f t) (hp : t.tablePrefix.toNat ≤ f.maxPrefix) (id : CellId) :
    v.find f id = pure (t.find id) := by
  have hprefix : v.shared.tablePrefix = t.tablePrefix := h.shared.tablePrefix_eq
  rw [find, SuffixTable.find, readPrefix_eq, pure_bind, hprefix]
  split
  · rfl
  · have hcount : v.count < 2 ^ 64 := by
      rw [h.count_eq]
      exact Nat.lt_of_le_of_lt (Nat.div_le_self ..) h.length_lt
    have hsearch : search (fun i => (fun r => decide (r.start ≤ f.suffixOf id)) <$> v.record f i) 0
        v.count = pure (Search.bisect (t.startsBy (f.suffixOf id)) 0 t.records.size) := by
      rw [h.size_eq]
      refine search_eq hcount fun i _ hi => ?_
      have hget := h.getElem?_records hi
      rw [h.record_eq hget, map_pure, SuffixTable.startsBy, hget]
    rw [readSuffix_eq, pure_bind, hsearch, pure_bind]
    simp only
    cases hborder : Search.bisect (t.startsBy (f.suffixOf id)) 0 t.records.size with
    | zero => rfl
    | succ index =>
      have hstarts := @Search.bisect_pred (t.startsBy (f.suffixOf id)) 0 t.records.size (by omega)
      rw [hborder, Nat.add_sub_cancel, SuffixTable.startsBy] at hstarts
      cases hget : t.records[index]? with
      | none => simp [hget] at hstarts
      | some r =>
        have hle : r.start ≤ f.suffixOf id := by simpa [hget] using hstarts
        simp only [h.record_eq hget, pure_bind, difference_eq hle, hget]
        split
        · rw [h.entry_eq hp (h.fits hget), map_pure]
        · rfl

lemma Shows.entryAt_eq (h : v.Shows f t) (hp : t.tablePrefix.toNat ≤ f.maxPrefix) (index : Nat) :
    v.entryAt f index = returns (t.entryAt index) := by
  rw [entryAt, SuffixTable.entryAt]
  cases hget : t.records[index]? with
  | none =>
    rw [if_pos (by rw [← h.size_eq]; exact Array.getElem?_eq_none_iff.1 hget), h.size_eq]
  | some r =>
    rw [if_neg (Nat.not_le.2 (h.lt_count hget)), h.record_eq hget, pure_bind,
      h.entry_eq hp (h.fits hget), returns_ok]

end SuffixView

/-! ## Prefixes -/

/-- What a file says about a prefix, with its table still in its bytes. -/
inductive PrefixView
  /-- A table with at least one range. -/
  | populated (table : SuffixView)
  /-- No table. -/
  | unpopulated (tablePrefix : UInt32)

namespace PrefixView

/-- The number of ranges. -/
def size : PrefixView → Nat
  | populated table => table.count
  | unpopulated _ => 0

/-- The range that holds a cell. -/
def find (f : Format) : PrefixView → CellId → Guarded (Option Entry)
  | populated table, id => table.find f id
  | unpopulated _, _ => pure none

/-- The range at a place of the table. -/
def entryAt (f : Format) : PrefixView → Nat → Guarded Entry
  | populated table, index => table.entryAt f index
  | unpopulated _, index => returns (.error (.indexOutOfBounds index 0))

/-- The value of the range at a place. -/
def value (f : Format) : PrefixView → Nat → Guarded (Option UInt32)
  | populated table, index => table.shared.value f index
  | unpopulated _, _ => pure none

/-- All ranges, asked for one by one. -/
def entries (f : Format) (v : PrefixView) : Guarded (List (Except Error Entry)) :=
  (List.range v.size).mapM fun index => attempt (v.entryAt f index)

/-- Every question about the prefix is answered in guarded steps, as the table answers it. -/
structure Answers (f : Format) (v : PrefixView) (t : PrefixTable f) : Prop where
  size_eq : v.size = t.size
  find_eq : ∀ id, v.find f id = pure (t.find id)
  entryAt_eq : ∀ index, v.entryAt f index = returns (t.entryAt index)
  value_eq : ∀ index, v.value f index = pure (t.value? index)

lemma answers_populated {v : SuffixView} {t : SuffixTable f} (h : v.Shows f t)
    (hp : t.tablePrefix.toNat ≤ f.maxPrefix) : Answers f (populated v) (.populated t) where
  size_eq := h.size_eq.symm
  find_eq := h.find_eq hp
  entryAt_eq := h.entryAt_eq hp
  value_eq := h.shared.value_eq

lemma answers_unpopulated (f : Format) (p : UInt32) :
    Answers f (unpopulated p) (.unpopulated p) where
  size_eq := rfl
  find_eq _ := rfl
  entryAt_eq _ := rfl
  value_eq _ := rfl

/-- All ranges are there, and none is an error. -/
lemma Answers.entries_eq {v : PrefixView} {t : PrefixTable f} (h : v.Answers f t) :
    v.entries f = pure ((List.range t.size).map t.entryAt) := by
  rw [entries, h.size_eq]
  refine mapM_eq fun index _ => ?_
  rw [h.entryAt_eq, attempt_returns]

end PrefixView

end Guarded

end CellIndex
