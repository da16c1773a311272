import CellIndex.Power

/-!
# Bytes and big-endian numbers

Files, blocks and records are lists of bytes.  Every number in them is written with its most
significant byte first, in a width that the surrounding layout fixes.

`BigEndian.encode` and `BigEndian.decode` are that notation and its reading.  They undo each other:
`decode_encode` for every number that fits its width, `encode_decode` for every list of bytes.
-/

namespace CellIndex

/-- A run of bytes, as it stands in a file. -/
abbrev Bytes := List UInt8

/-- A run of exactly `width` bytes. -/
abbrev FixedBytes (width : Nat) := { bytes : Bytes // bytes.length = width }

/-- The run of `width` zero bytes. -/
def FixedBytes.zero (width : Nat) : FixedBytes width :=
  ⟨List.replicate width 0, List.length_replicate⟩

namespace BigEndian

/-- The lowest `width` base-256 digits of `n`, most significant first. -/
def encode : (width n : Nat) → Bytes
  | 0, _ => []
  | width + 1, n => encode width (n / 256) ++ [UInt8.ofNat n]

/-- The number whose base-256 digits are `bytes`, most significant first. -/
def decode (bytes : Bytes) : Nat :=
  bytes.foldl (fun n byte => n * 256 + byte.toNat) 0

/-- The first `count` numbers of `width` bytes each, one after the other. -/
def decodeMany (width : Nat) : (count : Nat) → Bytes → List Nat
  | 0, _ => []
  | count + 1, bytes => decode (bytes.take width) :: decodeMany width count (bytes.drop width)

@[simp] theorem length_encode (width n : Nat) : (encode width n).length = width := by
  induction width generalizing n with
  | zero => rfl
  | succ width ih => simp [encode, ih]

@[simp] theorem length_decodeMany (width count : Nat) (bytes : Bytes) :
    (decodeMany width count bytes).length = count := by
  induction count generalizing bytes with
  | zero => rfl
  | succ count ih => simp [decodeMany, ih]

@[simp] theorem decode_nil : decode [] = 0 := rfl

@[simp] theorem decode_append_singleton (bytes : Bytes) (byte : UInt8) :
    decode (bytes ++ [byte]) = decode bytes * 256 + byte.toNat := by
  simp [decode]

/-- A number that fits its width is read back. -/
theorem decode_encode {width n : Nat} (h : n < 256 ^ width) : decode (encode width n) = n := by
  induction width generalizing n with
  | zero => simp at h; simp [encode, h]
  | succ width ih =>
    have hq : n / 256 < 256 ^ width := by
      rw [Nat.pow_succ] at h
      omega
    rw [encode, decode_append_singleton, ih hq]
    have hb : (UInt8.ofNat n).toNat = n % 256 := UInt8.toNat_ofNat'
    omega

/-- Induction that takes bytes off the end, where the least significant digit stands. -/
private theorem induction_last {motive : Bytes → Prop} (nil : motive [])
    (append : ∀ bytes byte, motive bytes → motive (bytes ++ [byte])) (bytes : Bytes) :
    motive bytes := by
  rw [← List.reverse_reverse bytes]
  induction bytes.reverse with
  | nil => exact nil
  | cons byte rest ih => simpa using append _ byte ih

/-- What `width` bytes spell fits the width. -/
theorem decode_lt (bytes : Bytes) : decode bytes < 256 ^ bytes.length := by
  induction bytes using induction_last with
  | nil => simp
  | append bytes byte ih =>
    have hb : byte.toNat < 256 := byte.toNat_lt
    rw [decode_append_singleton, List.length_append, List.length_singleton, Nat.pow_succ]
    omega

/-- Bytes are the notation of the number that they spell. -/
theorem encode_decode (bytes : Bytes) : encode bytes.length (decode bytes) = bytes := by
  induction bytes using induction_last with
  | nil => rfl
  | append bytes byte ih =>
    have hb : byte.toNat < 256 := byte.toNat_lt
    rw [decode_append_singleton, List.length_append, List.length_singleton, encode]
    have hq : (decode bytes * 256 + byte.toNat) / 256 = decode bytes := by omega
    have hr : UInt8.ofNat (decode bytes * 256 + byte.toNat) = byte := by
      apply UInt8.toNat_inj.1
      rw [UInt8.toNat_ofNat']
      omega
    rw [hq, hr, ih]

end BigEndian

end CellIndex
