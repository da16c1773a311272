import CellIndex.Bytes.Field
import Mathlib.Tactic.Common

/-!
# Fields in a run of bytes

A layout is a run of fields of known lengths.  A field is read by skipping those in front of it
(`slice_skip`, `number_skip`) and taking its own bytes (`slice_field`, `number_encode`); what stands
behind it does not matter.  In a run of numbers of one width each number is a field
(`getElem?_decodeMany`).

The other way round, bytes are the notation of the number that they spell (`encode_number`), and
fields that stand side by side are one field together (`slice_append_slice`).
-/

namespace CellIndex

namespace BigEndian

/-- Numbers that are written one after the other in one width are read back. -/
lemma decodeMany_flatMap_encode {width : Nat} {ns : List Nat} (h : ∀ n ∈ ns, n < 256 ^ width)
    (rest : Bytes) :
    decodeMany width ns.length (ns.flatMap (encode width) ++ rest) = ns := by
  induction ns with
  | nil => rfl
  | cons n ns ih =>
    have htake : ((n :: ns).flatMap (encode width) ++ rest).take width = encode width n := by
      rw [List.flatMap_cons, List.append_assoc, List.take_left' (length_encode width n)]
    have hdrop : ((n :: ns).flatMap (encode width) ++ rest).drop width =
        ns.flatMap (encode width) ++ rest := by
      rw [List.flatMap_cons, List.append_assoc, List.drop_left' (length_encode width n)]
    rw [List.length_cons, decodeMany, htake, hdrop, decode_encode (h n List.mem_cons_self),
      ih fun m hm => h m (List.mem_cons_of_mem _ hm)]

lemma length_flatMap_encode (width : Nat) (ns : List Nat) :
    (ns.flatMap (encode width)).length = width * ns.length := by
  induction ns with
  | nil => rfl
  | cons n ns ih =>
    rw [List.flatMap_cons, List.length_append, length_encode, ih, List.length_cons, Nat.mul_succ,
      Nat.add_comm]

/-- A number in a run of numbers stands where those before it end. -/
lemma getElem?_decodeMany {width count index : Nat} {bytes : Bytes} (h : index < count) :
    (decodeMany width count bytes)[index]? = some (bytes.number (width * index) width) := by
  induction index generalizing count bytes with
  | zero =>
    obtain ⟨count, rfl⟩ := Nat.exists_eq_add_one_of_ne_zero (Nat.ne_of_gt h)
    rfl
  | succ index ih =>
    obtain ⟨count, rfl⟩ := Nat.exists_eq_add_one_of_ne_zero (Nat.ne_of_gt (Nat.zero_lt_of_lt h))
    rw [decodeMany, List.getElem?_cons_succ, ih (Nat.lt_of_succ_lt_succ h), Bytes.number,
      Bytes.slice, List.drop_drop, Nat.mul_succ, Nat.add_comm]
    rfl

end BigEndian

namespace Bytes

variable {front field rest : Bytes} {offset width n : Nat}

lemma slice_skip (h : front.length ≤ offset) :
    slice (front ++ rest) offset n = slice rest (offset - front.length) n := by
  rw [slice, slice, List.drop_append, List.drop_eq_nil_of_le h, List.nil_append]

lemma slice_field (h : field.length = n) : slice (field ++ rest) 0 n = field := by
  rw [slice, List.drop_zero, List.take_left' h]

/-- A field behind a front whose length is its place. -/
lemma slice_at (ho : front.length = offset) (hn : field.length = n) :
    slice (front ++ (field ++ rest)) offset n = field := by
  rw [slice_skip (Nat.le_of_eq ho), ho, Nat.sub_self, slice_field hn]

lemma number_skip (h : front.length ≤ offset) :
    number (front ++ rest) offset width = number rest (offset - front.length) width := by
  rw [number, number, slice_skip h]

lemma number_encode (h : n < 256 ^ width) :
    number (BigEndian.encode width n ++ rest) 0 width = n := by
  rw [number, slice_field (BigEndian.length_encode width n), BigEndian.decode_encode h]

/-- What a field spells fits its width. -/
lemma number_lt (bytes : Bytes) (offset width : Nat) : bytes.number offset width < 256 ^ width := by
  refine Nat.lt_of_lt_of_le (BigEndian.decode_lt _) (Nat.pow_le_pow_right (by decide) ?_)
  rw [slice, List.length_take]
  exact Nat.min_le_left ..

@[simp] lemma number_encode_uint32 (w : UInt32) :
    number (BigEndian.encode 4 w.toNat ++ rest) 0 4 = w.toNat := number_encode w.toNat_lt

@[simp] lemma number_encode_uint64 (w : UInt64) :
    number (BigEndian.encode 8 w.toNat ++ rest) 0 8 = w.toNat := number_encode w.toNat_lt

variable {bytes : Bytes} {start : Nat}

/-! ## Numbers that are written again -/

/-- The bytes that are read are the notation of the number. -/
lemma encode_number (h : offset + width ≤ bytes.length) :
    BigEndian.encode width (bytes.number offset width) = bytes.slice offset width := by
  have hencode := BigEndian.encode_decode (bytes.slice offset width)
  rwa [length_slice h] at hencode

lemma encode_number_uint32 (h : offset + 4 ≤ bytes.length) :
    BigEndian.encode 4 (UInt32.ofNat (bytes.number offset 4)).toNat = bytes.slice offset 4 := by
  have hlt : bytes.number offset 4 < 2 ^ 32 := number_lt bytes offset 4
  rw [UInt32.toNat_ofNat', Nat.mod_eq_of_lt hlt, encode_number h]

lemma encode_number_uint64 (h : offset + 8 ≤ bytes.length) :
    BigEndian.encode 8 (UInt64.ofNat (bytes.number offset 8)).toNat = bytes.slice offset 8 := by
  have hlt : bytes.number offset 8 < 2 ^ 64 := number_lt bytes offset 8
  rw [UInt64.toNat_ofNat', Nat.mod_eq_of_lt hlt, encode_number h]

/-! ## Fields of a part -/

lemma slice_zero (bytes : Bytes) (n : Nat) : slice bytes 0 n = bytes.take n := by
  rw [slice, List.drop_zero]

/-- Fields side by side. -/
lemma slice_append_slice {m : Nat} (h : start + n = offset) :
    slice bytes start n ++ slice bytes offset m = slice bytes start (n + m) := by
  rw [slice, slice, slice, List.take_add, List.drop_drop, h]

lemma length_slice_le (bytes : Bytes) (offset n : Nat) :
    (slice bytes offset n).length ≤ bytes.length := by
  rw [slice, List.length_take, List.length_drop]
  omega

/-- A field of a part is a field of the whole. -/
lemma slice_slice (h : offset + width ≤ n) :
    slice (slice bytes start n) offset width = slice bytes (start + offset) width := by
  rw [slice, slice, slice, List.drop_take, List.drop_drop, List.take_take, Nat.min_eq_left]
  omega

lemma number_slice (h : offset + width ≤ n) :
    number (slice bytes start n) offset width = number bytes (start + offset) width := by
  rw [number, number, slice_slice h]

lemma number_take (h : offset + width ≤ n) :
    number (bytes.take n) offset width = number bytes offset width := by
  rw [← slice_zero, number_slice h, Nat.zero_add]

lemma number_drop :
    number (bytes.drop start) offset width = number bytes (start + offset) width := by
  rw [number, number, slice, slice, List.drop_drop]

end Bytes

end CellIndex
