import CellIndex.Proofs.Guarded.Basic
import CellIndex.Proofs.Sequence
import CellIndex.Proofs.Table.Image

/-!
# Reading tables in guarded steps

The directory is checked once, entry by entry.  From then on a block is two slices of the file,
which stay in its bytes since its entry has been checked (`readBlock_eq`).
-/

namespace CellIndex

namespace Guarded

open Sequence

variable {bytes : Bytes} {e : DirectoryEntry} {limit start index count : Nat}

/-! ## The header -/

/-- The header that a file begins with. -/
def readHeader (bytes : Bytes) : Guarded Header :=
  if bytes.length < Header.size then
    returns (.error (.invalidHeaderSize Header.size bytes.length))
  else do
    let magic ← field bytes 0 8
    let checksum ← field bytes 32 32
    let version ← number bytes 8 4
    let blockCount ← number bytes 12 4
    let directoryOffset ← number bytes 16 8
    let timestamp ← number bytes 24 8
    pure
      { magic, checksum
        version := UInt32.ofNat version
        blockCount := UInt32.ofNat blockCount
        directoryOffset := UInt64.ofNat directoryOffset
        timestamp := (UInt64.ofNat timestamp).toInt64 }

lemma readHeader_eq (bytes : Bytes) : readHeader bytes = returns (Header.decode bytes) := by
  rw [readHeader, Header.decode]
  by_cases h : bytes.length < Header.size
  · rw [if_pos h, dif_pos h]
  · have hlen : 64 ≤ bytes.length := Nat.le_of_not_lt h
    rw [if_neg h, dif_neg h, field_eq (by omega), pure_bind, field_eq (by omega), pure_bind,
      number_eq (by omega), pure_bind, number_eq (by omega), pure_bind, number_eq (by omega),
      pure_bind, number_eq (by omega), pure_bind, returns_ok]

/-! ## The directory -/

/-- The entry that a run of bytes begins with. -/
def readFields (part : Bytes) : Guarded DirectoryEntry :=
  if part.length < DirectoryEntry.size then returns (.error (.corrupt .directoryEntry))
  else do
    let blockId ← number part 0 4
    let sharedLength ← number part 4 4
    let offset ← number part 8 8
    let dataLength ← number part 16 8
    pure
      { blockId := UInt32.ofNat blockId
        sharedLength := UInt32.ofNat sharedLength
        offset := UInt64.ofNat offset
        dataLength := UInt64.ofNat dataLength }

/-- The entry at a place of the directory that begins at `start`. -/
def readEntry (bytes : Bytes) (start index : Nat) : Guarded DirectoryEntry := do
  let skip ← product 64 index DirectoryEntry.size
  let offset ← sum 64 start skip
  let stop ← sum 64 offset DirectoryEntry.size
  let part ← slice bytes offset stop
  readFields part

/-- The entries from a place of the directory on.  Each is checked as soon as it is read. -/
def readEntries (bytes : Bytes) (start : Nat) :
    (count index : Nat) → (previous : Option UInt32) → Guarded (List DirectoryEntry)
  | 0, _, _ => pure []
  | count + 1, index, previous => do
    let e ← readEntry bytes start index
    if e.offset.toNat < Header.size ∨ ¬ e.stop?.any (·.toNat ≤ start) then
      returns (.error (.corrupt (.blockOutside e.blockId)))
    else match previous.filter (e.blockId ≤ ·) with
      | some id => returns (.error (.corrupt (.directoryOrder e.blockId id)))
      | none => (e :: ·) <$> readEntries bytes start count (index + 1) (some e.blockId)

/-- The directory that a file has according to its header. -/
def readDirectory (bytes : Bytes) (header : Header) : Guarded (List DirectoryEntry) :=
  let count := header.blockCount.toNat
  let offset := header.directoryOffset.toNat
  let stop? := (checked 64 (count * DirectoryEntry.size)).bind fun n => checked 64 (n + offset)
  if offset < Header.size ∨ stop? ≠ some bytes.length then
    returns (.error (.corrupt (.directoryEnd count offset bytes.length)))
  else readEntries bytes offset count 0 none

lemma readFields_eq (part : Bytes) : readFields part = returns (DirectoryEntry.decode part) := by
  rw [readFields, DirectoryEntry.decode]
  by_cases h : part.length < DirectoryEntry.size
  · rw [if_pos h, if_pos h]
  · have hlen : 24 ≤ part.length := Nat.le_of_not_lt h
    rw [if_neg h, if_neg h, number_eq (by omega), pure_bind, number_eq (by omega), pure_bind,
      number_eq (by omega), pure_bind, number_eq (by omega), pure_bind, returns_ok]
    rfl

lemma readFields_slice (h : start + DirectoryEntry.size ≤ bytes.length) :
    readFields (bytes.slice start DirectoryEntry.size) =
      pure (DirectoryEntry.ofBytes (bytes.drop start)) := by
  have hlen := Bytes.length_slice h
  rw [readFields_eq, DirectoryEntry.decode, if_neg (by omega), returns_ok, DirectoryEntry.ofBytes,
    DirectoryEntry.ofBytes]
  simp only [Bytes.number_slice, Bytes.number_drop, DirectoryEntry.size, Nat.reduceAdd,
    Nat.reduceLeDiff]

lemma readEntry_eq (hlen : bytes.length < 2 ^ 64)
    (h : start + DirectoryEntry.size * (index + 1) ≤ bytes.length) :
    readEntry bytes start index =
      pure (DirectoryEntry.ofBytes (bytes.drop (start + DirectoryEntry.size * index))) := by
  simp only [DirectoryEntry.size] at h
  have hstop : start + index * 24 + 24 - (start + index * 24) = 24 := by omega
  rw [readEntry, DirectoryEntry.size, product_eq (by omega), pure_bind, sum_eq (by omega),
    pure_bind, sum_eq (by omega), pure_bind, slice_eq (by omega) (by omega), pure_bind, hstop,
    Nat.mul_comm index 24]
  exact readFields_slice (by rw [DirectoryEntry.size]; omega)

/-- The reader looks whether the end of a block fits a word, and so misses none that lies behind
the limit. -/
lemma stop?_any_iff (hlimit : limit < 2 ^ 64) :
    e.stop?.any (·.toNat ≤ limit) = true ↔ e.stop ≤ limit := by
  rw [DirectoryEntry.stop?]
  split
  · next h =>
    rw [Option.any_some, decide_eq_true_eq, UInt64.toNat_ofNat', Nat.mod_eq_of_lt h]
  · next h =>
    rw [Option.any_none]
    exact iff_of_false Bool.false_ne_true (by omega)

lemma inBounds_iff (hlimit : limit < 2 ^ 64) :
    ¬ (e.offset.toNat < Header.size ∨ ¬ e.stop?.any (·.toNat ≤ limit)) ↔ e.InBounds limit := by
  rw [not_or, not_not, stop?_any_iff hlimit, Nat.not_lt, DirectoryEntry.InBounds]

/-- Entries that are checked one by one are checked like all at once. -/
lemma readEntries_eq {previous : Option UInt32} (hlen : bytes.length < 2 ^ 64)
    (h : start + DirectoryEntry.size * (index + count) ≤ bytes.length) :
    let entries :=
      DirectoryEntry.decodeMany count (bytes.drop (start + DirectoryEntry.size * index))
    readEntries bytes start count index previous =
      returns ((DirectoryEntry.checkFrom start previous entries).map fun _ => entries) := by
  -- on the number of entries that are still to be read
  induction count generalizing index previous with
  | zero => rfl
  | succ count ih =>
    have hnext : start + DirectoryEntry.size * index + DirectoryEntry.size =
        start + DirectoryEntry.size * (index + 1) := by
      rw [Nat.mul_succ, Nat.add_assoc]
    have hfirst : start + DirectoryEntry.size * (index + 1) ≤ bytes.length :=
      Nat.le_trans (Nat.add_le_add_left (Nat.mul_le_mul_left _ (by omega)) _) h
    have hrest : start + DirectoryEntry.size * (index + 1 + count) ≤ bytes.length := by
      rwa [Nat.add_assoc, Nat.add_comm 1]
    have hlimit : start < 2 ^ 64 := by omega
    simp only [readEntries, readEntry_eq hlen hfirst, pure_bind, DirectoryEntry.decodeMany,
      List.drop_drop, hnext, DirectoryEntry.checkFrom_cons]
    by_cases hin : (DirectoryEntry.ofBytes
        (bytes.drop (start + DirectoryEntry.size * index))).InBounds start
    · rw [if_neg ((inBounds_iff hlimit).2 hin), if_neg (not_not_intro hin)]
      cases previous.filter ((DirectoryEntry.ofBytes
          (bytes.drop (start + DirectoryEntry.size * index))).blockId ≤ ·) with
      | some id => rfl
      | none =>
        simp only [ih hrest]
        cases DirectoryEntry.checkFrom _ _ _ <;> rfl
    · rw [if_pos (not_not.1 (mt (inBounds_iff hlimit).1 hin)), if_pos hin]
      rfl

lemma readDirectory_eq (hlen : bytes.length < 2 ^ 64) (header : Header) :
    readDirectory bytes header = returns (Table.directory header bytes) := by
  have hstop := checked_bind_eq_some_iff (a := header.blockCount.toNat * DirectoryEntry.size)
    (b := header.directoryOffset.toNat) hlen
  rw [Nat.mul_comm _ DirectoryEntry.size, Nat.add_comm] at hstop
  simp only [readDirectory, Table.directory, Nat.mul_comm _ DirectoryEntry.size, Ne, hstop]
  split
  · rfl
  · next h =>
    rw [not_or, not_not] at h
    rw [readEntries_eq hlen (by rw [Nat.zero_add]; exact Nat.le_of_eq h.2), Nat.mul_zero,
      Nat.add_zero]

/-! ## The table -/

/-- A file with its directory, whose blocks are cut out when they are asked for. -/
structure TableView where
  /-- The bytes of the file. -/
  bytes : Bytes
  /-- The directory. -/
  entries : Array DirectoryEntry

/-- The table in a file. -/
def readTable (bytes : Bytes) : Guarded TableView := do
  let header ← readHeader bytes
  let _ ← returns header.validate
  let rest ← slice bytes Header.size bytes.length
  if Sha256.digest rest ≠ header.checksum then returns (.error .checksumMismatch)
  else do
    let entries ← readDirectory bytes header
    pure { bytes, entries := entries.toArray }

/-- The block of an entry. -/
def readBlock (bytes : Bytes) (e : DirectoryEntry) : Guarded Block := do
  let dataStart ← sum 64 e.offset.toNat e.sharedLength.toNat
  let dataStop ← sum 64 dataStart e.dataLength.toNat
  let shared ← slice bytes e.offset.toNat dataStart
  let data ← slice bytes dataStart dataStop
  pure { id := e.blockId, shared, data }

/-- A block that lies in the file is cut out of it. -/
lemma readBlock_eq (h : e.InBounds bytes.length) (hlen : bytes.length < 2 ^ 64) :
    readBlock bytes e = pure (e.block bytes) := by
  have hstop : e.offset.toNat + e.sharedLength.toNat + e.dataLength.toNat ≤ bytes.length := h.2
  rw [readBlock, sum_eq (by omega), pure_bind, sum_eq (by omega), pure_bind,
    slice_eq (by omega) (by omega), pure_bind, slice_eq (by omega) (by omega), pure_bind,
    Nat.add_sub_cancel_left, Nat.add_sub_cancel_left]
  rfl

namespace TableView

/-- The numbers of the blocks. -/
def blockIds (v : TableView) : List UInt32 := v.entries.toList.map DirectoryEntry.blockId

/-- The block with a number, by a binary search in the directory. -/
def find (v : TableView) (id : UInt32) : Guarded (Option Block) := do
  let index ← search (fun i => (fun e => decide (e.blockId < id)) <$> member v.entries i) 0
    v.entries.size
  match v.entries[index]? with
  | none => pure none
  | some e => if e.blockId = id then some <$> readBlock v.bytes e else pure none

/-- The view stands for a table: its directory has been checked, and leads to the blocks. -/
structure Shows (v : TableView) (t : Table) : Prop where
  length_lt : v.bytes.length < 2 ^ 64
  inBounds : ∀ e ∈ v.entries, e.InBounds v.bytes.length
  size_lt : v.entries.size < 2 ^ 64
  blocks_eq : t.blocks = v.entries.map (·.block v.bytes)

lemma getElem?_blocks {v : TableView} {t : Table} (h : v.Shows t) (i : Nat) :
    t.blocks[i]? = v.entries[i]?.map (·.block v.bytes) := by
  rw [h.blocks_eq, Array.getElem?_map]

lemma Shows.blockIds_eq {v : TableView} {t : Table} (h : v.Shows t) : v.blockIds = t.blockIds := by
  rw [blockIds, Table.blockIds, h.blocks_eq, Array.toList_map, List.map_map]
  rfl

/-- A block is found by its entry, and its slices stay in the file. -/
lemma Shows.find_eq {v : TableView} {t : Table} (h : v.Shows t) (id : UInt32) :
    v.find id = pure (t.find? id) := by
  have hsize : t.blocks.size = v.entries.size := by rw [h.blocks_eq, Array.size_map]
  have hsearch : search (fun i => (fun e => decide (e.blockId < id)) <$> member v.entries i) 0
      v.entries.size = pure (Search.bisect (t.isBelow id) 0 t.blocks.size) := by
    rw [hsize]
    refine search_eq h.size_lt fun i _ hi => ?_
    rw [member_eq (Array.getElem?_eq_getElem hi), map_pure, Table.isBelow, getElem?_blocks h,
      Array.getElem?_eq_getElem hi]
    rfl
  rw [find, hsearch, pure_bind, Table.find?, getElem?_blocks h]
  cases hget : v.entries[Search.bisect (t.isBelow id) 0 t.blocks.size]? with
  | none => rfl
  | some e =>
    have hid : (e.block v.bytes).id = e.blockId := rfl
    simp only [Option.map_some, Option.filter, hid, decide_eq_true_eq]
    split
    · rw [readBlock_eq (h.inBounds e (Array.mem_of_getElem? hget)) h.length_lt, map_pure]
    · rfl

/-- A block is no longer than the file. -/
lemma Shows.length_lt_of_find? {v : TableView} {t : Table} (h : v.Shows t) {id : UInt32}
    {block : Block} (hfind : t.find? id = some block) :
    block.shared.length < 2 ^ 64 ∧ block.data.length < 2 ^ 64 := by
  have hb := (Table.mem_of_find? hfind).1
  rw [h.blocks_eq, Array.toList_map, List.mem_map] at hb
  obtain ⟨e, -, rfl⟩ := hb
  exact ⟨Nat.lt_of_le_of_lt (Bytes.length_slice_le ..) h.length_lt,
    Nat.lt_of_le_of_lt (Bytes.length_slice_le ..) h.length_lt⟩

end TableView

/-- The directory of a table that is read lies in the file, and so do its blocks. -/
lemma bounds_of_directory {header : Header} {entries : List DirectoryEntry}
    (h : Table.directory header bytes = .ok entries) :
    (∀ e ∈ entries, e.InBounds bytes.length) ∧ entries.length ≤ bytes.length := by
  simp only [Table.directory, ite_error_eq_ok, not_or, Nat.not_lt, not_not] at h
  obtain ⟨⟨-, hstop⟩, h⟩ := h
  obtain ⟨⟨⟩, hcheck, rfl⟩ := map_eq_ok.1 h
  refine ⟨fun e he => ?_, ?_⟩
  · have hin := DirectoryEntry.inBounds_of_checkFrom hcheck e he
    exact ⟨hin.1, Nat.le_trans hin.2 (by omega)⟩
  · rw [DirectoryEntry.length_decodeMany]
    simp only [DirectoryEntry.size] at hstop
    omega

lemma size_le_of_decode {header : Header} (h : Header.decode bytes = .ok header) :
    Header.size ≤ bytes.length := by
  rw [Header.decode] at h
  split at h
  · cases h
  · next hlen => exact Nat.le_of_not_lt hlen

/-- A table is read in guarded steps. -/
theorem readTable_mirrors (hlen : bytes.length < 2 ^ 64) :
    Mirrors TableView.Shows (readTable bytes) (Table.ofBytes bytes) := by
  rw [readTable, Table.ofBytes, readHeader_eq]
  cases hheader : Header.decode bytes with
  | error e => exact .error e
  | ok header =>
    have hsize := size_le_of_decode hheader
    have hrest : bytes.slice Header.size (bytes.length - Header.size) = bytes.drop Header.size := by
      exact List.take_of_length_le (Nat.le_of_eq List.length_drop)
    -- the header has been read, and its magic and version are judged next
    change Mirrors TableView.Shows (pure header >>= _) (header.validate >>= _)
    rw [pure_bind]
    refine .bind (.returns header.validate) ?_
    rintro _ _ rfl
    rw [slice_eq hsize (Nat.le_refl _), pure_bind, hrest]
    by_cases hdigest : Sha256.digest (bytes.drop Header.size) ≠ header.checksum
    · rw [if_pos hdigest, if_pos hdigest]
      exact .error _
    · rw [if_neg hdigest, if_neg hdigest, readDirectory_eq hlen]
      cases hdir : Table.directory header bytes with
      | error e => exact .error e
      | ok entries =>
        obtain ⟨hbounds, hcount⟩ := bounds_of_directory hdir
        refine .ok ⟨hlen, fun e he => hbounds e (List.mem_toArray.1 he), ?_, ?_⟩
        · rw [List.size_toArray]
          exact Nat.lt_of_le_of_lt hcount hlen
        · rw [List.map_toArray]

end Guarded

end CellIndex
