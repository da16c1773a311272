import CellIndex.Proofs.Bytes.Field
import CellIndex.Table.Directory

/-!
# Headers and directory entries are read back

Both are runs of fields of fixed widths, so reading one after writing it gives it back, whatever
follows it in the file.  And their fields leave no byte out, so writing one after reading it repeats
the bytes.
-/

namespace CellIndex

open Bytes (number_skip slice_skip slice_field slice_append_slice slice_zero encode_number_uint32
  encode_number_uint64)

variable {bytes : Bytes}

namespace Header

lemma number_encode_append (h : Header) (rest : Bytes) :
    ((h.encode ++ rest).number 8 4 = h.version.toNat ∧
      (h.encode ++ rest).number 12 4 = h.blockCount.toNat) ∧
    (h.encode ++ rest).number 16 8 = h.directoryOffset.toNat ∧
      (h.encode ++ rest).number 24 8 = h.timestamp.toUInt64.toNat := by
  have hm := h.magic.2
  simp [encode, List.append_assoc, number_skip, hm]

lemma slice_encode_append (h : Header) (rest : Bytes) :
    (h.encode ++ rest).slice 0 8 = h.magic.1 ∧ (h.encode ++ rest).slice 32 32 = h.checksum.1 := by
  have hm := h.magic.2
  have hc := h.checksum.2
  simp [encode, List.append_assoc, slice_skip, slice_field, hm, hc]

/-- A header is read back, whatever follows it. -/
lemma decode_encode_append (h : Header) (rest : Bytes) : decode (h.encode ++ rest) = .ok h := by
  obtain ⟨⟨hv, hb⟩, hd, ht⟩ := number_encode_append h rest
  obtain ⟨hm, hc⟩ := slice_encode_append h rest
  have hlen : ¬ (h.encode ++ rest).length < size := by
    rw [List.length_append, length_encode]
    omega
  rw [decode, dif_neg hlen]
  simp [hv, hb, hd, ht, hm, hc]

/-- Any 64 bytes are those of a header. -/
lemma exists_decode_eq_ok (h : size ≤ bytes.length) :
    ∃ header, decode bytes = .ok header ∧ header.encode = bytes.take size := by
  have hlen : 64 ≤ bytes.length := h
  rw [decode, dif_neg (Nat.not_lt.2 h)]
  refine ⟨_, rfl, ?_⟩
  rw [encode, UInt64.toUInt64_toInt64, encode_number_uint32 (by omega),
    encode_number_uint32 (by omega), encode_number_uint64 (by omega),
    encode_number_uint64 (by omega)]
  rw [slice_append_slice rfl, slice_append_slice rfl, slice_append_slice rfl,
    slice_append_slice rfl, slice_append_slice rfl, slice_zero, size]

lemma decode_of_length_lt (h : bytes.length < size) :
    decode bytes = .error (.invalidHeaderSize size bytes.length) := dif_pos h

end Header

namespace DirectoryEntry

@[simp] lemma length_encode (e : DirectoryEntry) : e.encode.length = size := by
  simp [encode, size]

/-- An entry is read back, whatever follows it. -/
lemma ofBytes_encode_append (e : DirectoryEntry) (rest : Bytes) :
    ofBytes (e.encode ++ rest) = e := by
  simp [ofBytes, encode, List.append_assoc, number_skip]

lemma decode_encode_append (e : DirectoryEntry) (rest : Bytes) :
    decode (e.encode ++ rest) = .ok e := by
  have hlen : ¬ (e.encode ++ rest).length < size := by
    rw [List.length_append, length_encode]
    omega
  rw [decode, if_neg hlen, ofBytes_encode_append]

/-- Any 24 bytes are those of an entry. -/
lemma encode_ofBytes (h : size ≤ bytes.length) : (ofBytes bytes).encode = bytes.take size := by
  have hlen : 24 ≤ bytes.length := h
  rw [encode, ofBytes, encode_number_uint32 (by omega), encode_number_uint32 (by omega),
    encode_number_uint64 (by omega), encode_number_uint64 (by omega)]
  rw [slice_append_slice rfl, slice_append_slice rfl, slice_append_slice rfl, slice_zero, size]

lemma exists_decode_eq_ok (h : size ≤ bytes.length) :
    ∃ e, decode bytes = .ok e ∧ e.encode = bytes.take size :=
  ⟨ofBytes bytes, if_neg (Nat.not_lt.2 h), encode_ofBytes h⟩

lemma decode_of_length_lt (h : bytes.length < size) :
    decode bytes = .error (.corrupt .directoryEntry) := if_pos h

lemma length_decodeMany (count : Nat) (bytes : Bytes) :
    (decodeMany count bytes).length = count := by
  induction count generalizing bytes with
  | zero => rfl
  | succ count ih => rw [decodeMany, List.length_cons, ih]

/-- Entries one after the other are read back. -/
lemma decodeMany_encode (entries : List DirectoryEntry) (rest : Bytes) :
    decodeMany entries.length (entries.flatMap encode ++ rest) = entries := by
  induction entries with
  | nil => rfl
  | cons e entries ih =>
    rw [List.length_cons, decodeMany, List.flatMap_cons, List.append_assoc, ofBytes_encode_append,
      List.drop_left' e.length_encode, ih]

lemma length_flatMap_encode (entries : List DirectoryEntry) :
    (entries.flatMap encode).length = size * entries.length := by
  induction entries with
  | nil => rfl
  | cons e entries ih =>
    rw [List.flatMap_cons, List.length_append, ih, length_encode, List.length_cons, Nat.mul_succ,
      Nat.add_comm]

end DirectoryEntry

end CellIndex
