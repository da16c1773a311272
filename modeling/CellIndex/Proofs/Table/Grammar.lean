import CellIndex.Proofs.Table.Image

/-!
# Which runs of bytes are tables

The grammar of tables is a short list of rules (`Rule`) about the numbers at fixed places of a run
of bytes: the header says where the directory begins, and the directory where the blocks stand.

Reading follows the rules in their order.  It succeeds exactly if all of them hold, tells the first
that is broken otherwise, and then finds each block that the directory names
(**`ofBytes_grammar`**).  The rules speak of the bytes only, and of exact numbers, not of headers or
entries that have been read.
-/

namespace CellIndex.Table

open Bytes Sequence

namespace Grammar

/-! ## The numbers in the bytes -/

section Numbers

variable (bytes : Bytes) (index : Nat)

/-- The version of the layout. -/
def version : Nat := bytes.number 8 4

/-- The number of blocks. -/
def entryCount : Nat := bytes.number 12 4

/-- Where the directory begins. -/
def directoryStart : Nat := bytes.number 16 8

/-- The digest that the header tells. -/
def checksum : Bytes := bytes.slice 32 32

/-- Where the directory speaks of a block. -/
def entryStart : Nat := directoryStart bytes + 24 * index

/-- The number of a block. -/
def idAt : Nat := bytes.number (entryStart bytes index) 4

/-- The number of bytes of its shared data. -/
def sharedLengthAt : Nat := bytes.number (entryStart bytes index + 4) 4

/-- Where the block begins. -/
def offsetAt : Nat := bytes.number (entryStart bytes index + 8) 8

/-- The number of bytes of its data. -/
def dataLengthAt : Nat := bytes.number (entryStart bytes index + 16) 8

/-- The block that the directory delimits. -/
def blockAt : Block where
  id := UInt32.ofNat (idAt bytes index)
  shared := bytes.slice (offsetAt bytes index) (sharedLengthAt bytes index)
  data := bytes.slice (offsetAt bytes index + sharedLengthAt bytes index) (dataLengthAt bytes index)

/-- The block stands between the header and the directory. -/
def Inside : Prop :=
  64 ≤ offsetAt bytes index ∧
    offsetAt bytes index + sharedLengthAt bytes index + dataLengthAt bytes index ≤
      directoryStart bytes

/-- The first `count` entries of the directory name blocks that stand inside, by ascending
numbers. -/
structure Sound (count : Nat) : Prop where
  inside : ∀ index < count, Inside bytes index
  ascending : ∀ index later, index < later → later < count → idAt bytes index < idAt bytes later

/-- An entry behind sound ones has the fault: its block stands outside, or else its number does not
come after the one before. -/
def HasFault (fault : Corruption) : Prop :=
  ¬ Inside bytes index ∧ fault = .blockOutside (UInt32.ofNat (idAt bytes index)) ∨
    Inside bytes index ∧ 0 < index ∧ idAt bytes index ≤ idAt bytes (index - 1) ∧
      fault = .directoryOrder (UInt32.ofNat (idAt bytes index))
        (UInt32.ofNat (idAt bytes (index - 1)))

end Numbers

/-! ## The rules -/

/-- The rules of the grammar. -/
inductive Rule
  /-- There is room for a header. -/
  | header
  /-- The header begins with the magic letters. -/
  | magic
  /-- The version is one that can be read. -/
  | version
  /-- The digest of everything after the header is the one that the header tells. -/
  | checksum
  /-- The directory begins after the header and ends the file. -/
  | directoryEnd
  /-- The directory is sound. -/
  | directory

namespace Rule

/-- The place of a rule in the order of the checks. -/
def rank : Rule → Nat
  | header => 0
  | magic => 1
  | version => 2
  | checksum => 3
  | directoryEnd => 4
  | directory => 5

/-- What a rule asks of a run of bytes. -/
def Holds (bytes : Bytes) : Rule → Prop
  | header => 64 ≤ bytes.length
  | magic => bytes.slice 0 8 = "SATS2RNG".toList.map fun letter => UInt8.ofNat letter.toNat
  | version => Grammar.version bytes ≤ 1
  | checksum => (Sha256.digest (bytes.drop 64)).1 = Grammar.checksum bytes
  | directoryEnd =>
    64 ≤ directoryStart bytes ∧ directoryStart bytes + 24 * entryCount bytes = bytes.length
  | directory => Sound bytes (entryCount bytes)

/-- The rule is broken, and none before it is. -/
structure FirstBroken (bytes : Bytes) (rule : Rule) : Prop where
  broken : ¬ rule.Holds bytes
  before : ∀ earlier : Rule, earlier.rank < rule.rank → earlier.Holds bytes

/-- The error with which a broken rule refuses a run of bytes. -/
def Tells (bytes : Bytes) : Rule → Error → Prop
  | header, e => e = .invalidHeaderSize 64 bytes.length
  | magic, e => e = .invalidMagic
  | version, e => e = .unsupportedVersion (Grammar.version bytes)
  | checksum, e => e = .checksumMismatch
  | directoryEnd, e =>
    e = .corrupt (.directoryEnd (entryCount bytes) (directoryStart bytes) bytes.length)
  | directory, e => ∃ index < entryCount bytes, Sound bytes index ∧
    ∃ fault, HasFault bytes index fault ∧ e = .corrupt fault

/-- Where rules are broken, one of them is the first. -/
lemma exists_firstBroken {bytes : Bytes} (h : ¬ ∀ rule : Rule, rule.Holds bytes) :
    ∃ rule : Rule, rule.FirstBroken bytes := by
  by_contra hnone
  refine h fun rule => ?_
  induction hrank : rule.rank using Nat.strongRecOn generalizing rule with
  | ind rank ih =>
    by_contra hbroken
    exact hnone ⟨rule, hbroken, fun earlier hlt => ih _ (hrank ▸ hlt) earlier rfl⟩

/-- In bytes that are too short for a header, the first rule is the first that is broken. -/
lemma FirstBroken.eq_header {bytes : Bytes} {rule : Rule} (h : rule.FirstBroken bytes)
    (hshort : ¬ 64 ≤ bytes.length) : rule = header := by
  by_contra hne
  have hrank : header.rank < rule.rank := by
    cases rule with
    | header => exact absurd rfl hne
    | magic | version | checksum | directoryEnd | directory => decide
  exact hshort (h.before header hrank)

end Rule

end Grammar

open Grammar

/-! ## The directory, entry by entry -/

section Directory

variable {bytes : Bytes} {index count limit : Nat} {entries : List DirectoryEntry}

/-- The entry at a place of the directory. -/
def entryAt (bytes : Bytes) (index : Nat) : DirectoryEntry :=
  .ofBytes (bytes.drop (entryStart bytes index))

@[simp] lemma toNat_blockId_entryAt : (entryAt bytes index).blockId.toNat = idAt bytes index := by
  simp only [entryAt, DirectoryEntry.ofBytes, number_drop, UInt32.toNat_ofNat', Nat.add_zero]
  exact Nat.mod_eq_of_lt (number_lt ..)

@[simp] lemma toNat_sharedLength_entryAt :
    (entryAt bytes index).sharedLength.toNat = sharedLengthAt bytes index := by
  simp only [entryAt, DirectoryEntry.ofBytes, number_drop, UInt32.toNat_ofNat']
  exact Nat.mod_eq_of_lt (number_lt ..)

@[simp] lemma toNat_offset_entryAt : (entryAt bytes index).offset.toNat = offsetAt bytes index := by
  simp only [entryAt, DirectoryEntry.ofBytes, number_drop, UInt64.toNat_ofNat']
  exact Nat.mod_eq_of_lt (number_lt ..)

@[simp] lemma toNat_dataLength_entryAt :
    (entryAt bytes index).dataLength.toNat = dataLengthAt bytes index := by
  simp only [entryAt, DirectoryEntry.ofBytes, number_drop, UInt64.toNat_ofNat']
  exact Nat.mod_eq_of_lt (number_lt ..)

lemma blockId_entryAt : (entryAt bytes index).blockId = UInt32.ofNat (idAt bytes index) := by
  rw [← toNat_blockId_entryAt, UInt32.ofNat_toNat]

lemma block_entryAt : (entryAt bytes index).block bytes = blockAt bytes index := by
  simp [DirectoryEntry.block, blockAt, blockId_entryAt]

lemma inBounds_entryAt_iff :
    (entryAt bytes index).InBounds (directoryStart bytes) ↔ Inside bytes index := by
  simp [DirectoryEntry.InBounds, DirectoryEntry.stop, Inside, Header.size]

/-- The first entries of the directory. -/
def entriesUpTo (bytes : Bytes) (count : Nat) : List DirectoryEntry :=
  (List.range count).map (entryAt bytes)

lemma decodeMany_eq_map (count : Nat) (bytes : Bytes) :
    DirectoryEntry.decodeMany count bytes =
      (List.range count).map fun index => .ofBytes (bytes.drop (24 * index)) := by
  induction count generalizing bytes with
  | zero => rfl
  | succ count ih =>
    rw [DirectoryEntry.decodeMany, ih, List.range_succ_eq_map, List.map_cons, List.map_map]
    simp [Function.comp_def, DirectoryEntry.size, Nat.mul_succ, Nat.add_comm]

lemma decodeMany_drop_directoryStart (count : Nat) :
    DirectoryEntry.decodeMany count (bytes.drop (directoryStart bytes)) =
      entriesUpTo bytes count := by
  simp [decodeMany_eq_map, entriesUpTo, entryAt, entryStart]

/-- The checks of a directory pass exactly if it is sound. -/
lemma checkFrom_entriesUpTo_eq_ok_iff :
    DirectoryEntry.checkFrom (directoryStart bytes) none (entriesUpTo bytes count) = .ok () ↔
      Sound bytes count := by
  constructor
  · intro h
    have hinside := DirectoryEntry.inBounds_of_checkFrom h
    obtain ⟨hpairwise, -⟩ := DirectoryEntry.pairwise_of_checkFrom h
    refine ⟨fun index hindex => ?_, fun index later hlt hlater => ?_⟩
    · exact inBounds_entryAt_iff.1
        (hinside _ (List.mem_map_of_mem (List.mem_range.2 hindex)))
    · have hlt := List.pairwise_iff_getElem.1 hpairwise index later
        (by simp [entriesUpTo]; omega) (by simpa [entriesUpTo]) hlt
      simpa [entriesUpTo, UInt32.lt_iff_toNat_lt] using hlt
  · intro h
    refine DirectoryEntry.checkFrom_eq_ok ?_ ?_ (by simp)
    · intro e he
      obtain ⟨index, hindex, rfl⟩ := List.mem_map.1 he
      exact inBounds_entryAt_iff.2 (h.inside index (List.mem_range.1 hindex))
    · refine List.pairwise_iff_getElem.2 fun index later _ hlater hlt => ?_
      have hcount : later < count := by simpa [entriesUpTo] using hlater
      simpa [entriesUpTo, UInt32.lt_iff_toNat_lt] using h.ascending index later hlt hcount

/-- The checks fail at the first entry that has a fault. -/
lemma exists_of_checkFrom_eq_error {previous : Option UInt32} {error : Error}
    (h : DirectoryEntry.checkFrom limit previous entries = .error error) :
    ∃ front e back, entries = front ++ e :: back ∧
      DirectoryEntry.checkFrom limit previous front = .ok () ∧
      (¬ e.InBounds limit ∧ error = .corrupt (.blockOutside e.blockId) ∨
        e.InBounds limit ∧ ∃ last ∈ (front.getLast?.map DirectoryEntry.blockId).or previous,
          e.blockId ≤ last ∧ error = .corrupt (.directoryOrder e.blockId last)) := by
  induction entries generalizing previous with
  | nil => cases h
  | cons e entries ih =>
    rw [DirectoryEntry.checkFrom_cons] at h
    by_cases hin : e.InBounds limit
    · rw [if_neg (not_not_intro hin)] at h
      cases hprevious : previous.filter (e.blockId ≤ ·) with
      | some last =>
        rw [hprevious] at h
        obtain ⟨hlast, hle⟩ := Option.filter_eq_some_iff.1 hprevious
        refine ⟨[], e, entries, rfl, rfl, .inr ⟨hin, last, hlast, of_decide_eq_true hle, ?_⟩⟩
        exact (Except.error.inj h).symm
      | none =>
        rw [hprevious] at h
        obtain ⟨front, e', back, rfl, hfront, hfault⟩ := ih h
        refine ⟨e :: front, e', back, rfl, ?_, ?_⟩
        · rw [DirectoryEntry.checkFrom_cons, if_neg (not_not_intro hin), hprevious]
          exact hfront
        · -- behind a first entry, the number before an entry is that of the entry before it
          have hlast : (((e :: front).getLast?.map DirectoryEntry.blockId).or previous) =
              (front.getLast?.map DirectoryEntry.blockId).or (some e.blockId) := by
            cases front with
            | nil => rfl
            | cons _ _ => simp [List.getLast?_cons]
          rwa [hlast]
    · rw [if_pos hin] at h
      exact ⟨[], e, entries, rfl, rfl, .inl ⟨hin, (Except.error.inj h).symm⟩⟩

/-- A part of the first entries is the first entries up to some place. -/
lemma entriesUpTo_eq_append {front back : List DirectoryEntry} {e : DirectoryEntry}
    (h : entriesUpTo bytes count = front ++ e :: back) :
    front.length < count ∧ front = entriesUpTo bytes front.length ∧
      e = entryAt bytes front.length := by
  have hlength := congrArg List.length h
  simp only [entriesUpTo, List.length_map, List.length_range, List.length_append,
    List.length_cons] at hlength
  refine ⟨by omega, ?_, ?_⟩
  · have htake := congrArg (List.take front.length) h
    rw [List.take_left' rfl, entriesUpTo, ← List.map_take, List.take_range,
      Nat.min_eq_left (by omega)] at htake
    exact htake.symm
  · have hget := congrArg (·[front.length]?) h
    simpa [entriesUpTo, show front.length < count by omega, eq_comm] using hget

/-- The checks of a directory that is not sound tell its first fault. -/
lemma tells_of_checkFrom_entriesUpTo {error : Error}
    (h : DirectoryEntry.checkFrom (directoryStart bytes) none (entriesUpTo bytes count) =
      .error error) :
    ∃ index < count, Sound bytes index ∧ ∃ fault, HasFault bytes index fault ∧
      error = .corrupt fault := by
  obtain ⟨front, e, back, hentries, hfront, hfault⟩ := exists_of_checkFrom_eq_error h
  obtain ⟨hlt, heq, rfl⟩ := entriesUpTo_eq_append hentries
  rw [heq, checkFrom_entriesUpTo_eq_ok_iff] at hfront
  refine ⟨front.length, hlt, hfront, ?_⟩
  simp only [inBounds_entryAt_iff, blockId_entryAt] at hfault
  rcases hfault with ⟨houtside, rfl⟩ | ⟨hinside, last, hlast, hle, rfl⟩
  · exact ⟨_, .inl ⟨houtside, rfl⟩, rfl⟩
  · rcases List.eq_nil_or_concat front with rfl | ⟨front', e, rfl⟩
    · cases hlast
    · -- the last entry in front is the one before
      have hprevious : e = entryAt bytes front'.length := by
        rw [List.concat_eq_append] at hentries
        exact (entriesUpTo_eq_append (hentries.trans (List.append_assoc ..))).2.2
      have hlength : (front'.concat e).length = front'.length + 1 := List.length_concat
      rw [hlength] at hinside hle ⊢
      have hlast : last = UInt32.ofNat (idAt bytes front'.length) := by
        simpa [hprevious, blockId_entryAt, eq_comm] using hlast
      refine ⟨_, .inr ⟨hinside, Nat.succ_pos _, ?_, rfl⟩, by rw [hlast]; rfl⟩
      rw [hlast, ← blockId_entryAt, ← blockId_entryAt, UInt32.le_iff_toNat_le] at hle
      simpa using hle

end Directory

/-! ## Reading follows the rules -/

section Reading

variable {bytes : Bytes} {header : Header} {t : Table} {id : UInt32}

/-- The header that stands in front of the bytes. -/
structure IsHeaderOf (header : Header) (bytes : Bytes) : Prop where
  decode_eq : Header.decode bytes = .ok header
  magic_eq : header.magic.1 = bytes.slice 0 8
  version_eq : header.version.toNat = version bytes
  blockCount_eq : header.blockCount.toNat = entryCount bytes
  directoryOffset_eq : header.directoryOffset.toNat = directoryStart bytes
  checksum_eq : header.checksum.1 = checksum bytes

lemma exists_isHeaderOf (h : 64 ≤ bytes.length) : ∃ header, IsHeaderOf header bytes := by
  refine ⟨_, dif_neg (Nat.not_lt.2 h), rfl, ?_, ?_, ?_, rfl⟩
  · exact (UInt32.toNat_ofNat').trans (Nat.mod_eq_of_lt (number_lt ..))
  · exact (UInt32.toNat_ofNat').trans (Nat.mod_eq_of_lt (number_lt ..))
  · exact (UInt64.toNat_ofNat').trans (Nat.mod_eq_of_lt (number_lt ..))

/-- Reading behind a header, one check after the other. -/
lemma IsHeaderOf.ofBytes_eq (h : IsHeaderOf header bytes) : Table.ofBytes bytes =
    if bytes.slice 0 8 ≠ Header.tableMagic.1 then .error .invalidMagic
    else if 1 < version bytes then .error (.unsupportedVersion (version bytes))
    else if (Sha256.digest (bytes.drop 64)).1 ≠ checksum bytes then .error .checksumMismatch
    else if directoryStart bytes < 64 ∨
        directoryStart bytes + 24 * entryCount bytes ≠ bytes.length then
      .error (.corrupt (.directoryEnd (entryCount bytes) (directoryStart bytes) bytes.length))
    else
      (DirectoryEntry.checkFrom (directoryStart bytes) none
        (entriesUpTo bytes (entryCount bytes))).map fun _ =>
          { header
            blocks := ((List.range (entryCount bytes)).map (blockAt bytes)).toArray } := by
  have hmagic : header.magic = Header.tableMagic ↔ bytes.slice 0 8 = Header.tableMagic.1 := by
    rw [← h.magic_eq, Subtype.ext_iff]
  have hversion : Header.currentVersion < header.version ↔ 1 < version bytes := by
    rw [← h.version_eq, UInt32.lt_iff_toNat_lt]
    rfl
  have hchecksum : Sha256.digest (bytes.drop 64) = header.checksum ↔
      (Sha256.digest (bytes.drop 64)).1 = checksum bytes := by
    rw [← h.checksum_eq, Subtype.ext_iff]
  have hblocks : (entriesUpTo bytes (entryCount bytes)).map (·.block bytes) =
      (List.range (entryCount bytes)).map (blockAt bytes) := by
    simp [entriesUpTo, block_entryAt, Function.comp_def]
  rw [Table.ofBytes, h.decode_eq]
  simp only [Header.validate, directory, ne_eq, hmagic, hversion, hchecksum, h.version_eq,
    h.blockCount_eq, h.directoryOffset_eq, Header.size, DirectoryEntry.size,
    decodeMany_drop_directoryStart, bind, Except.bind]
  by_cases hm : ¬ bytes.slice 0 8 = Header.tableMagic.1
  · simp only [if_pos hm]
  by_cases hv : 1 < version bytes
  · simp only [if_neg hm, if_pos hv]
  by_cases hd : ¬ (Sha256.digest (bytes.drop 64)).1 = checksum bytes
  · simp only [if_neg hm, if_neg hv, if_pos hd]
  by_cases he : directoryStart bytes < 64 ∨
      ¬ directoryStart bytes + 24 * entryCount bytes = bytes.length
  · simp only [if_neg hm, if_neg hv, if_neg hd, if_pos he]
  simp only [if_neg hm, if_neg hv, if_neg hd, if_neg he]
  cases DirectoryEntry.checkFrom (directoryStart bytes) none
    (entriesUpTo bytes (entryCount bytes)) with
  | error e => rfl
  | ok u => simp only [Except.map, hblocks, pure, Except.pure]

/-- The magic bytes are the magic letters. -/
lemma tableMagic_eq :
    Header.tableMagic.1 = "SATS2RNG".toList.map fun letter => UInt8.ofNat letter.toNat := by
  decide +kernel

/-- Bytes that are too short for a header are not read any further. -/
lemma ofBytes_eq_error_of_short (h : bytes.length < 64) :
    Table.ofBytes bytes = .error (.invalidHeaderSize 64 bytes.length) := by
  have hdecode : Header.decode bytes = .error (.invalidHeaderSize 64 bytes.length) := dif_pos h
  rw [Table.ofBytes, hdecode]
  rfl

/-- The first rule that is broken refuses the bytes. -/
lemma exists_error_of_firstBroken {rule : Rule} (h : rule.FirstBroken bytes) :
    ∃ e, Table.ofBytes bytes = .error e ∧ rule.Tells bytes e := by
  have hbroken := h.broken
  have hbefore := h.before
  by_cases hlong : 64 ≤ bytes.length
  · obtain ⟨header, hheader⟩ := exists_isHeaderOf hlong
    have hmagic : 1 < rule.rank → bytes.slice 0 8 = Header.tableMagic.1 := fun hrank =>
      (hbefore .magic hrank).trans tableMagic_eq.symm
    have hversion : 2 < rule.rank → ¬ 1 < version bytes := fun hrank =>
      Nat.not_lt.2 (hbefore .version hrank)
    have hchecksum : 3 < rule.rank → (Sha256.digest (bytes.drop 64)).1 = checksum bytes :=
      hbefore .checksum
    have hend : 4 < rule.rank → ¬ (directoryStart bytes < 64 ∨
        directoryStart bytes + 24 * entryCount bytes ≠ bytes.length) := fun hrank => by
      have hends := hbefore .directoryEnd hrank
      simp only [Rule.Holds] at hends
      omega
    rw [hheader.ofBytes_eq]
    cases rule with
    | header => exact absurd hlong hbroken
    | magic => exact ⟨_, if_pos (by rwa [tableMagic_eq]), rfl⟩
    | version =>
      rw [if_neg (not_not_intro (hmagic (by decide)))]
      exact ⟨_, if_pos (Nat.not_le.1 hbroken), rfl⟩
    | checksum =>
      rw [if_neg (not_not_intro (hmagic (by decide))), if_neg (hversion (by decide))]
      exact ⟨_, if_pos hbroken, rfl⟩
    | directoryEnd =>
      rw [if_neg (not_not_intro (hmagic (by decide))), if_neg (hversion (by decide)),
        if_neg (not_not_intro (hchecksum (by decide)))]
      refine ⟨_, if_pos ?_, rfl⟩
      simp only [Rule.Holds] at hbroken
      omega
    | directory =>
      rw [if_neg (not_not_intro (hmagic (by decide))), if_neg (hversion (by decide)),
        if_neg (not_not_intro (hchecksum (by decide))), if_neg (hend (by decide))]
      cases hcheck : DirectoryEntry.checkFrom (directoryStart bytes) none
          (entriesUpTo bytes (entryCount bytes)) with
      | error e => exact ⟨e, rfl, tells_of_checkFrom_entriesUpTo hcheck⟩
      | ok u => exact absurd (checkFrom_entriesUpTo_eq_ok_iff.1 hcheck) hbroken
  · obtain rfl := h.eq_header hlong
    exact ⟨_, ofBytes_eq_error_of_short (Nat.not_le.1 hlong), rfl⟩

/-- What is read obeys all rules, and has the blocks that the directory delimits. -/
lemma rules_of_ofBytes (h : Table.ofBytes bytes = .ok t) :
    (∀ rule : Rule, rule.Holds bytes) ∧
      t.blocks.toList = (List.range (entryCount bytes)).map (blockAt bytes) := by
  have hrules : ∀ rule : Rule, rule.Holds bytes := by
    by_contra hbroken
    obtain ⟨rule, hfirst⟩ := Rule.exists_firstBroken hbroken
    obtain ⟨e, herror, -⟩ := exists_error_of_firstBroken hfirst
    rw [h] at herror
    cases herror
  refine ⟨hrules, ?_⟩
  obtain ⟨header, hheader⟩ := exists_isHeaderOf (hrules .header)
  rw [hheader.ofBytes_eq] at h
  simp only [ite_error_eq_ok] at h
  obtain ⟨-, -, -, -, h⟩ := h
  obtain ⟨_, -, rfl⟩ := map_eq_ok.1 h
  rfl

/-- Bytes that obey all rules are read. -/
lemma exists_ofBytes_of_rules (h : ∀ rule : Rule, rule.Holds bytes) :
    ∃ t, Table.ofBytes bytes = .ok t := by
  obtain ⟨header, hheader⟩ := exists_isHeaderOf (h .header)
  have hmagic : bytes.slice 0 8 = Header.tableMagic.1 := (h .magic).trans tableMagic_eq.symm
  have hversion : version bytes ≤ 1 := h .version
  have hchecksum : (Sha256.digest (bytes.drop 64)).1 = checksum bytes := h .checksum
  obtain ⟨hstart, hend⟩ : 64 ≤ directoryStart bytes ∧
    directoryStart bytes + 24 * entryCount bytes = bytes.length := h .directoryEnd
  have hsound : Sound bytes (entryCount bytes) := h .directory
  rw [hheader.ofBytes_eq, if_neg (not_not_intro hmagic), if_neg (Nat.not_lt.2 hversion),
    if_neg (not_not_intro hchecksum), if_neg (by omega),
    checkFrom_entriesUpTo_eq_ok_iff.2 hsound]
  exact ⟨_, rfl⟩

/-- A look-up in blocks that stand in order finds exactly the block with the number. -/
lemma find?_eq_some_iff {block : Block} (h : t.blocks.toList.Pairwise (·.id < ·.id)) :
    t.find? id = some block ↔ block ∈ t.blocks.toList ∧ block.id = id := by
  constructor
  · exact mem_of_find?
  · rintro ⟨hmem, rfl⟩
    exact find?_of_mem h hmem

end Reading

section Main

variable {bytes : Bytes} {t : Table} {id : UInt32} {index : Nat}

lemma toNat_id_blockAt (bytes : Bytes) (index : Nat) :
    (blockAt bytes index).id.toNat = idAt bytes index := by
  rw [blockAt, UInt32.toNat_ofNat']
  exact Nat.mod_eq_of_lt (number_lt ..)

/-- The parts of a block inside have the lengths that the directory tells. -/
lemma length_blockAt (h : Inside bytes index) (hstart : directoryStart bytes ≤ bytes.length) :
    (blockAt bytes index).shared.length = sharedLengthAt bytes index ∧
      (blockAt bytes index).data.length = dataLengthAt bytes index := by
  obtain ⟨-, hstop⟩ := h
  exact ⟨length_slice (by omega), length_slice (by omega)⟩

/-- **Which bytes are read as a table.**  Bytes are read exactly if they obey all rules of the
grammar.  Otherwise they are refused with the error of the first rule that they break.  In what is
read, a number leads to a block exactly if an entry of the directory has it, and the block then
consists of exactly the bytes that this entry delimits. -/
theorem ofBytes_grammar (bytes : Bytes) :
    ((∃ t, Table.ofBytes bytes = .ok t) ↔ ∀ rule : Rule, rule.Holds bytes) ∧
      (∀ rule : Rule, rule.FirstBroken bytes →
        ∃ e, Table.ofBytes bytes = .error e ∧ rule.Tells bytes e) ∧
      ∀ t, Table.ofBytes bytes = .ok t → ∀ id : UInt32,
        ((∃ block, t.find? id = some block) ↔
          ∃ index < entryCount bytes, idAt bytes index = id.toNat) ∧
        ∀ index < entryCount bytes, idAt bytes index = id.toNat →
          t.find? id = some (blockAt bytes index) ∧
            (blockAt bytes index).shared.length = sharedLengthAt bytes index ∧
            (blockAt bytes index).data.length = dataLengthAt bytes index := by
  refine ⟨⟨?_, exists_ofBytes_of_rules⟩, fun rule => exists_error_of_firstBroken, ?_⟩
  · rintro ⟨t, h⟩
    exact (rules_of_ofBytes h).1
  intro t h id
  obtain ⟨hrules, hblocks⟩ := rules_of_ofBytes h
  obtain ⟨-, hend⟩ : 64 ≤ directoryStart bytes ∧
    directoryStart bytes + 24 * entryCount bytes = bytes.length := hrules .directoryEnd
  have hsound : Sound bytes (entryCount bytes) := hrules .directory
  have hfound : ∀ index < entryCount bytes, idAt bytes index = id.toNat →
      t.find? id = some (blockAt bytes index) := by
    intro index hindex hid
    refine (find?_eq_some_iff (pairwise_of_ofBytes h)).2 ⟨?_, ?_⟩
    · rw [hblocks]
      exact List.mem_map_of_mem (List.mem_range.2 hindex)
    · rw [← UInt32.toNat_inj, toNat_id_blockAt, hid]
  refine ⟨⟨?_, ?_⟩, fun index hindex hid => ⟨hfound index hindex hid, ?_⟩⟩
  · rintro ⟨block, hfind⟩
    obtain ⟨hmem, rfl⟩ := mem_of_find? hfind
    rw [hblocks] at hmem
    obtain ⟨index, hindex, rfl⟩ := List.mem_map.1 hmem
    exact ⟨index, List.mem_range.1 hindex, (toNat_id_blockAt bytes index).symm⟩
  · rintro ⟨index, hindex, hid⟩
    exact ⟨_, hfound index hindex hid⟩
  · exact length_blockAt (hsound.inside index hindex) (by omega)

end Main

end CellIndex.Table
