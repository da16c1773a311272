import CellIndex.Format.Layout
import CellIndex.Bytes

/-!
# Records

A suffix table stores each range as one number: the suffix of its first cell above the number of
its cells.

```text
+---------------------+------------------------------+
|  start suffix       |  length in cells             |
|  suffix bits        |  record bits - suffix bits   |
+---------------------+------------------------------+
```

A record is read back from its number if the number of cells fits its bits (`Record.unpack_pack`),
and every number is that of the record it is read as (`Record.pack_unpack`).
-/

namespace CellIndex

/-- A range inside a suffix table. -/
structure Record where
  /-- The suffix of the first cell. -/
  start : Nat
  /-- The number of cells. -/
  length : Nat
deriving DecidableEq, Inhabited, Repr

namespace Record

/-- The number that stands for a record. -/
def pack (f : Format) (r : Record) : Nat := r.start * 2 ^ f.lengthBits + r.length

/-- The record that a number stands for. -/
def unpack (f : Format) (n : Nat) : Record := ⟨n / 2 ^ f.lengthBits, n % 2 ^ f.lengthBits⟩

/-- The bytes of a record. -/
def encode (f : Format) (r : Record) : Bytes := BigEndian.encode f.recordBytes (r.pack f)

/-- The records in a run of bytes whose length is a multiple of that of a record. -/
def decodeAll (f : Format) (bytes : Bytes) : List Record :=
  (BigEndian.decodeMany f.recordBytes (bytes.length / f.recordBytes) bytes).map (unpack f)

/-- A packed record is read back if its length is one that the format can say. -/
theorem unpack_pack {f : Format} {r : Record} (h : r.length ≤ f.maxLength) :
    unpack f (r.pack f) = r := by
  have hp : 0 < 2 ^ f.lengthBits := Nat.two_pow_pos _
  have hl : r.length < 2 ^ f.lengthBits := by
    unfold Format.maxLength at h
    omega
  simp only [unpack, pack]
  rw [Nat.mul_comm, Nat.mul_add_div hp, Nat.div_eq_of_lt hl, Nat.mul_add_mod,
    Nat.mod_eq_of_lt hl, Nat.add_zero]

/-- A number is that of the record that it stands for. -/
theorem pack_unpack (f : Format) (n : Nat) : (unpack f n).pack f = n := by
  simp only [unpack, pack]
  rw [Nat.mul_comm]
  exact Nat.div_add_mod n _

end Record

end CellIndex
