import CellIndex.Proofs.Guarded.Table
import Mathlib.Data.Set.Function

/-!
# Records of a fixed layout

The header of a table and the entries of its directory are records: runs of fields that stand at
fixed places.  A record is written into a buffer of zero bytes, each field over the bytes of its
place (`overwrite`), and read from the same places.  Two places that overlap, or a gap between them,
would lose a field or leave a zero byte.  But the fields fill the record (`Fills`), and so the
buffer holds them in a row in the end (`writeRecord_eq`).

A record is exact if its values and the runs of its bytes stand for each other one by one
(`ExactRecord`, `ExactRecord.bijOn`).  **`Table.records_exact`** says that both records are, and
that an entry tells the exact end of its block wherever a word holds it.
-/

namespace CellIndex

/-- A record of `size` bytes, in which nothing is lost and nothing is left out.  It is read from the
bytes in front, and refused if there are not enough of them. -/
structure ExactRecord {α : Type} (size : Nat) (encode : α → Bytes)
    (decode : Bytes → Except Error α) (tooShort : Nat → Error) : Prop where
  decode_encode : ∀ a rest, decode (encode a ++ rest) = .ok a
  encode_decode : ∀ bytes : Bytes, size ≤ bytes.length →
    ∃ a, decode bytes = .ok a ∧ encode a = bytes.take size
  decode_short : ∀ bytes : Bytes, bytes.length < size →
    decode bytes = .error (tooShort bytes.length)

namespace ExactRecord

variable {α : Type} {size : Nat} {encode : α → Bytes} {decode : Bytes → Except Error α}
  {tooShort : Nat → Error}

lemma decode_encode_self (h : ExactRecord size encode decode tooShort) (a : α) :
    decode (encode a) = .ok a := by
  have hdecode := h.decode_encode a []
  rwa [List.append_nil] at hdecode

lemma injective (h : ExactRecord size encode decode tooShort) : Function.Injective encode := by
  intro a b hab
  have hdecode := h.decode_encode_self a
  rw [hab, h.decode_encode_self b, Except.ok.injEq] at hdecode
  exact hdecode.symm

/-- Fewer bytes would be refused, and more would not be written again. -/
lemma length_encode (h : ExactRecord size encode decode tooShort) (a : α) :
    (encode a).length = size := by
  have hle : size ≤ (encode a).length := by
    by_contra hlt
    have hshort := h.decode_short _ (Nat.not_le.1 hlt)
    rw [h.decode_encode_self] at hshort
    cases hshort
  obtain ⟨b, hb, htake⟩ := h.encode_decode _ hle
  rw [h.decode_encode_self, Except.ok.injEq] at hb
  subst hb
  rw [htake, List.length_take_of_le hle]

/-- The values and the runs of `size` bytes stand for each other one by one. -/
lemma bijOn (h : ExactRecord size encode decode tooShort) :
    Set.BijOn encode Set.univ {bytes | bytes.length = size} := by
  refine ⟨fun a _ => h.length_encode a, h.injective.injOn, fun bytes hbytes => ?_⟩
  have hlen : bytes.length = size := hbytes
  obtain ⟨a, -, ha⟩ := h.encode_decode bytes (Nat.le_of_eq hlen.symm)
  exact ⟨a, Set.mem_univ a, by rw [ha, ← hlen, List.take_length]⟩

end ExactRecord

lemma Header.exactRecord :
    ExactRecord Header.size Header.encode Header.decode (.invalidHeaderSize Header.size ·) where
  decode_encode := decode_encode_append
  encode_decode _ := exists_decode_eq_ok
  decode_short _ := decode_of_length_lt

lemma DirectoryEntry.exactRecord :
    ExactRecord DirectoryEntry.size DirectoryEntry.encode DirectoryEntry.decode
      fun _ => .corrupt .directoryEntry where
  decode_encode := decode_encode_append
  encode_decode _ := exists_decode_eq_ok
  decode_short _ := decode_of_length_lt

namespace Guarded

/-! ## Writing in place -/

/-- A field of a record, and the place that it gets. -/
structure PlacedField where
  /-- Where the place begins. -/
  start : Nat
  /-- Where the place ends. -/
  stop : Nat
  /-- The bytes of the field. -/
  bytes : Bytes

/-- Writes bytes over those from one place up to another, of which there have to be as many. -/
def overwrite (buffer : Bytes) (start stop : Nat) (bytes : Bytes) : Guarded Bytes :=
  if start ≤ stop ∧ stop ≤ buffer.length ∧ bytes.length = stop - start then
    pure (buffer.take start ++ bytes ++ buffer.drop stop)
  else trap

/-- Writes fields over the bytes of their places, one after the other. -/
def writeFields (buffer : Bytes) (fields : List PlacedField) : Guarded Bytes :=
  fields.foldlM (fun buffer f => overwrite buffer f.start f.stop f.bytes) buffer

/-- The bytes of a record, which are zero before its fields are written. -/
def writeRecord (size : Nat) (fields : List PlacedField) : Guarded Bytes :=
  writeFields (List.replicate size 0) fields

/-- From one place up to another the fields stand side by side, each as long as its place. -/
def Fills : (start : Nat) → List PlacedField → (stop : Nat) → Prop
  | start, [], stop => start = stop
  | start, f :: fields, stop =>
    f.start = start ∧ start + f.bytes.length = f.stop ∧ Fills f.stop fields stop

/-- A field that follows those already written takes the place of as many zero bytes. -/
lemma overwrite_zeros (front bytes : Bytes) (count : Nat) :
    overwrite (front ++ List.replicate (bytes.length + count) 0) front.length
        (front.length + bytes.length) bytes =
      pure (front ++ bytes ++ List.replicate count 0) := by
  have hdrop : (front ++ List.replicate (bytes.length + count) (0 : UInt8)).drop
      (front.length + bytes.length) = List.replicate count 0 := by
    rw [List.drop_append, List.drop_eq_nil_of_le (Nat.le_add_right ..), List.nil_append,
      Nat.add_sub_cancel_left, List.drop_replicate, Nat.add_sub_cancel_left]
  rw [overwrite, if_pos, List.take_left, hdrop]
  rw [List.length_append, List.length_replicate]
  omega

lemma Fills.stop_eq {fields : List PlacedField} {start stop : Nat} (h : Fills start fields stop) :
    stop = start + (fields.flatMap PlacedField.bytes).length := by
  induction fields generalizing start with
  | nil => exact h.symm
  | cons f fields ih =>
    obtain ⟨-, hstop, hrest⟩ := h
    rw [ih hrest, ← hstop, List.flatMap_cons, List.length_append, Nat.add_assoc]

/-- Fields that fill a buffer behind its front stand there in a row. -/
lemma writeFields_eq {front : Bytes} {fields : List PlacedField} {stop : Nat}
    (h : Fills front.length fields stop) :
    writeFields (front ++ List.replicate (fields.flatMap PlacedField.bytes).length 0) fields =
      pure (front ++ fields.flatMap PlacedField.bytes) := by
  -- on the fields that are still to be written; those that are stand in `front`
  induction fields generalizing front with
  | nil => rfl
  | cons f fields ih =>
    obtain ⟨hstart, hstop, hrest⟩ := h
    have hfront : (front ++ f.bytes).length = f.stop := by rw [List.length_append, hstop]
    rw [writeFields, List.foldlM_cons, List.flatMap_cons, List.length_append, hstart, ← hstop,
      overwrite_zeros, pure_bind, ← writeFields, ih (by rwa [hfront]), List.append_assoc]

lemma writeRecord_eq {size : Nat} {fields : List PlacedField} (h : Fills 0 fields size) :
    writeRecord size fields = pure (fields.flatMap PlacedField.bytes) := by
  have hsize := h.stop_eq
  have hwrite := @writeFields_eq [] fields size h
  rwa [← Nat.zero_add (List.length _), ← hsize] at hwrite

/-- The eight bytes of a number with a sign, in two's complement. -/
def twosComplement (w : Int64) : Bytes := BigEndian.encode 8 (w.toInt % (2 ^ 64 : Nat)).toNat

lemma twosComplement_eq (w : Int64) : twosComplement w = BigEndian.encode 8 w.toUInt64.toNat := by
  have hbits := BitVec.toNat_ofInt (n := 64) w.toBitVec.toInt
  rw [BitVec.ofInt_toInt] at hbits
  exact congrArg (BigEndian.encode 8) hbits.symm

/-- The fields of a header. -/
def headerFields (h : Header) : List PlacedField :=
  [⟨0, 8, h.magic.1⟩, ⟨8, 12, BigEndian.encode 4 h.version.toNat⟩,
    ⟨12, 16, BigEndian.encode 4 h.blockCount.toNat⟩,
    ⟨16, 24, BigEndian.encode 8 h.directoryOffset.toNat⟩, ⟨24, 32, twosComplement h.timestamp⟩,
    ⟨32, 64, h.checksum.1⟩]

/-- The fields of a directory entry. -/
def entryFields (e : DirectoryEntry) : List PlacedField :=
  [⟨0, 4, BigEndian.encode 4 e.blockId.toNat⟩, ⟨4, 8, BigEndian.encode 4 e.sharedLength.toNat⟩,
    ⟨8, 16, BigEndian.encode 8 e.offset.toNat⟩, ⟨16, 24, BigEndian.encode 8 e.dataLength.toNat⟩]

lemma writeRecord_header (h : Header) :
    writeRecord Header.size (headerFields h) = pure h.encode := by
  have hfills : Fills 0 (headerFields h) Header.size := by
    simp [headerFields, twosComplement, Fills, h.magic.2, h.checksum.2, Header.size]
  rw [writeRecord_eq hfills]
  simp [headerFields, twosComplement_eq, Header.encode]

lemma writeRecord_entry (e : DirectoryEntry) :
    writeRecord DirectoryEntry.size (entryFields e) = pure e.encode := by
  have hfills : Fills 0 (entryFields e) DirectoryEntry.size := by
    simp [entryFields, Fills, DirectoryEntry.size]
  rw [writeRecord_eq hfills]
  simp [entryFields, DirectoryEntry.encode]

/-! ## The end of a block -/

/-- Where a block ends, if each of the two sums fits a word. -/
def checkedStop (e : DirectoryEntry) : Option Nat :=
  (checked 64 (e.offset.toNat + e.sharedLength.toNat)).bind fun n =>
    checked 64 (n + e.dataLength.toNat)

lemma checkedStop_eq (e : DirectoryEntry) : checkedStop e = checked 64 e.stop := by
  rw [checkedStop, checked_bind, DirectoryEntry.stop]

lemma stop?_eq (e : DirectoryEntry) : e.stop?.map UInt64.toNat = checked 64 e.stop := by
  rw [DirectoryEntry.stop?, checked]
  split
  · next h => rw [Option.map_some, UInt64.toNat_ofNat', Nat.mod_eq_of_lt h]
  · rfl

end Guarded

namespace Table

open Guarded

/-- **The records of a table are exact.**

* Every header takes 64 bytes, from which it is read whatever follows them.  Any 64 bytes are those
  of just one header, and of fewer bytes the error tells the number.
* The same holds for directory entries and 24 bytes.
* Both are written and read at fixed places, and no step leaves the bytes that it works on.
* Where a block ends is told exactly if a word can hold it, and else not at all.  It is enough to
  look at each of the two sums. -/
theorem records_exact :
    (ExactRecord 64 Header.encode Header.decode (fun length => .invalidHeaderSize 64 length) ∧
      Set.BijOn Header.encode Set.univ {bytes | bytes.length = 64}) ∧
    (ExactRecord 24 DirectoryEntry.encode DirectoryEntry.decode
        (fun _ => .corrupt .directoryEntry) ∧
      Set.BijOn DirectoryEntry.encode Set.univ {bytes | bytes.length = 24}) ∧
    ((∀ h : Header, writeRecord 64 (headerFields h) = pure h.encode) ∧
      ∀ bytes, readHeader bytes = returns (Header.decode bytes)) ∧
    ((∀ e : DirectoryEntry, writeRecord 24 (entryFields e) = pure e.encode) ∧
      ∀ bytes, readFields bytes = returns (DirectoryEntry.decode bytes)) ∧
    ∀ e : DirectoryEntry, checkedStop e = e.stop?.map UInt64.toNat ∧
      e.stop?.map UInt64.toNat =
        if e.offset.toNat + e.sharedLength.toNat + e.dataLength.toNat < 2 ^ 64 then
          some (e.offset.toNat + e.sharedLength.toNat + e.dataLength.toNat)
        else none :=
  ⟨⟨Header.exactRecord, Header.exactRecord.bijOn⟩,
    ⟨DirectoryEntry.exactRecord, DirectoryEntry.exactRecord.bijOn⟩,
    ⟨writeRecord_header, readHeader_eq⟩, ⟨writeRecord_entry, readFields_eq⟩,
    fun e => ⟨by rw [checkedStop_eq, stop?_eq], stop?_eq e⟩⟩

/-- All 66 bytes are different and the timestamp is negative; one byte too few is refused; and the
sums of the words in these bytes leave a word, but those of another entry just fit. -/
theorem records_exact_descending_bytes :
    let bytes : Bytes := (List.range 66).map fun i => UInt8.ofNat (255 - i)
    (∃ h, Header.decode bytes = .ok h ∧ h.encode = bytes.take 64 ∧
      h.timestamp.toInt = -0x18191A1B1C1D1E20 ∧ Header.decode (h.encode ++ [7]) = .ok h ∧
      writeRecord 64 (headerFields h) = pure (bytes.take 64)) ∧
    Header.decode (bytes.take 63) = .error (.invalidHeaderSize 64 63) ∧
    (∃ e, DirectoryEntry.decode bytes = .ok e ∧ e.encode = bytes.take 24 ∧ checkedStop e = none) ∧
    DirectoryEntry.decode (bytes.take 23) = .error (.corrupt .directoryEntry) ∧
    checkedStop ⟨9, 1, 0xFFFFFFFFFFFFFFF0, 14⟩ = some 0xFFFFFFFFFFFFFFFF := by
  intro bytes
  obtain ⟨⟨hheader, -⟩, ⟨hentry, -⟩, ⟨hwrite, -⟩, -, hstop⟩ := records_exact
  obtain ⟨h, hdecode, hencode⟩ := hheader.encode_decode bytes (by decide)
  obtain ⟨e, hdecode', hencode'⟩ := hentry.encode_decode bytes (by decide)
  have htime : (Header.decode bytes).map (·.timestamp.toInt) = .ok (-0x18191A1B1C1D1E20) := by rfl
  have hoverflow : (DirectoryEntry.decode bytes).map DirectoryEntry.stop? = .ok none := by cbv
  rw [hdecode] at htime
  rw [hdecode'] at hoverflow
  refine ⟨⟨h, hdecode, hencode, Except.ok.inj htime, hheader.decode_encode h [7], ?_⟩,
    hheader.decode_short (bytes.take 63) (by decide), ⟨e, hdecode', hencode', ?_⟩,
    hentry.decode_short (bytes.take 23) (by decide), ?_⟩
  · rw [hwrite, hencode]
  · rw [(hstop e).1, Except.ok.inj hoverflow]
    rfl
  · rw [(hstop _).1]
    rfl

end Table

end CellIndex
