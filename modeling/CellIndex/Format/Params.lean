import CellIndex.Cell.Basic
import CellIndex.Error

/-!
# Formats of range files

A cell of level `k` has `3 + 2 * k` significant bits: face and path.  A range file is made for one
level and cuts these bits in two.  The upper ones, the *prefix*, choose a suffix table; the lower
ones, the *suffix*, order the cells inside it.

```text
bit 63                                                       bit 0
+------------------+------------------+---+--------------------+
|      prefix      |      suffix      | 1 | 2 * (30 - level) 0 |
+------------------+------------------+---+--------------------+
```

`Params` are the numbers that fix such a layout, `Params.Valid` says when they fit together, and a
`Format` is a choice of numbers that do.  `Params.fault?` names the first rule that a choice
breaks, in the order in which the rules are listed in `Params.Valid`.
-/

namespace CellIndex

/-- The numbers that describe a range file. -/
structure Params where
  /-- The level of the cells in the file. -/
  level : UInt8
  /-- The number of bits of the prefix. -/
  prefixBits : UInt32
  /-- The number of bits of the suffix. -/
  suffixBits : UInt32
  /-- The number of the block that holds the table of prefix zero. -/
  blockOffset : UInt32
  /-- The number of bits of a record, which holds a suffix and the length of a range. -/
  recordBits : UInt32
  /-- Whether the cells in the file are allowed, or denied. -/
  allowedList : Bool
  /-- The number of bytes of a value, zero if ranges have no values. -/
  valueBytes : UInt8 := 0
  /-- A number that the file carries for its readers. -/
  version : UInt32 := 0
deriving DecidableEq, Inhabited, Repr

namespace Params

/-- The number of significant bits of a cell of the level. -/
def dataBits (p : Params) : Nat := 3 + 2 * p.level.toNat

/-- The rules that the parameters of a format obey. -/
structure Valid (p : Params) : Prop where
  /-- The level exists. -/
  level_le : p.level.toNat ≤ CellId.maxLevel
  /-- Prefix and suffix are all significant bits. -/
  bits_eq : p.prefixBits.toNat + p.suffixBits.toNat = p.dataBits
  /-- The prefix holds the face. -/
  prefixBits_ge : 3 ≤ p.prefixBits.toNat
  /-- The prefix is a word. -/
  prefixBits_le : p.prefixBits.toNat ≤ 32
  /-- There is a suffix. -/
  suffixBits_pos : 0 < p.suffixBits.toNat
  /-- Block zero is no suffix table. -/
  blockOffset_pos : 0 < p.blockOffset.toNat
  /-- The number of the last suffix table is a word. -/
  blockOffset_le : 2 ^ p.prefixBits.toNat - 1 + p.blockOffset.toNat < 2 ^ 32
  /-- Records are whole bytes. -/
  recordBits_mod : p.recordBits.toNat % 8 = 0
  /-- A record has room for a suffix and at least one bit more. -/
  recordBits_gt : p.suffixBits.toNat < p.recordBits.toNat
  /-- A record is at most eight bytes. -/
  recordBits_le : p.recordBits.toNat ≤ 64
  /-- A value is at most four bytes. -/
  valueBytes_le : p.valueBytes.toNat ≤ 4
  /-- Only allowed cells have values. -/
  allowedList_of_valueBytes : 0 < p.valueBytes.toNat → p.allowedList = true

/-- The first rule that the parameters break. -/
def fault? (p : Params) : Option FormatFault :=
  let level := p.level.toNat
  let prefixBits := p.prefixBits.toNat
  let suffixBits := p.suffixBits.toNat
  let offset := p.blockOffset.toNat
  let recordBits := p.recordBits.toNat
  let valueBytes := p.valueBytes.toNat
  if CellId.maxLevel < level then some (.level level)
  else if prefixBits + suffixBits ≠ p.dataBits then
    some (.bitSum prefixBits suffixBits p.dataBits level)
  else if prefixBits < 3 ∨ 32 < prefixBits then some (.prefixBits prefixBits)
  else if suffixBits = 0 then some .noSuffixBits
  else if offset = 0 then some .noBlockOffset
  else if 2 ^ 32 ≤ 2 ^ prefixBits - 1 + offset then some (.blockOffset offset)
  else if recordBits % 8 ≠ 0 ∨ recordBits ≤ suffixBits ∨ 64 < recordBits then
    some (.recordBits recordBits suffixBits)
  else if 4 < valueBytes then some (.valueBytes valueBytes)
  else if 0 < valueBytes ∧ p.allowedList = false then some .valuesOfDenied
  else none

/-- No rule is broken exactly if all hold. -/
theorem fault?_eq_none_iff {p : Params} : p.fault? = none ↔ p.Valid := by
  constructor
  · intro h
    simp only [fault?] at h
    repeat' split at h
    all_goals try exact (Option.some_ne_none _ h).elim
    next h1 h2 h3 h4 h5 h6 h7 h8 h9 =>
      refine ⟨by omega, by omega, by omega, by omega, by omega, by omega, by omega, by omega,
        by omega, by omega, by omega, fun hv => ?_⟩
      simpa using fun ha => h9 ⟨hv, ha⟩
  · rintro ⟨h1, h2, h3, h4, h5, h6, h7, h8, h9, h10, h11, h12⟩
    have h13 : ¬ (0 < p.valueBytes.toNat ∧ p.allowedList = false) := by
      rintro ⟨hv, ha⟩
      simp [h12 hv] at ha
    simp only [fault?]
    rw [if_neg (by omega), if_neg (by omega), if_neg (by omega), if_neg (by omega),
      if_neg (by omega), if_neg (by omega), if_neg (by omega), if_neg (by omega), if_neg h13]

end Params

/-- Parameters that fit together. -/
structure Format where
  /-- The parameters. -/
  params : Params
  /-- They obey the rules. -/
  valid : params.Valid
deriving DecidableEq, Repr

namespace Format

/-- The format with the given parameters, or the first rule that they break. -/
def ofParams (p : Params) : Except FormatFault Format :=
  match h : p.fault? with
  | none => .ok ⟨p, Params.fault?_eq_none_iff.1 h⟩
  | some fault => .error fault

/-- Parameters that obey the rules are those of a format. -/
@[simp] theorem ofParams_params (f : Format) : ofParams f.params = .ok f := by
  have h := Params.fault?_eq_none_iff.2 f.valid
  unfold ofParams
  split
  · rfl
  · simp_all

/-- The ready-made format of a level: a prefix of eleven bits, or of all bits but one if there are
fewer, and records that can hold any range of a table if eight bytes are enough for it. -/
def preset (level : UInt8) (allowedList : Bool) (valueBytes : UInt8) (version : UInt32) :
    Except FormatFault Format :=
  let k := level.toNat
  if k = 0 ∨ CellId.maxLevel < k then .error (.noPreset k)
  else
    let dataBits := 3 + 2 * k
    let prefixBits := min 11 (dataBits - 1)
    let suffixBits := dataBits - prefixBits
    let recordBits := min 64 ((2 * suffixBits + 1 + 7) / 8 * 8)
    ofParams
      { level, allowedList, valueBytes, version
        prefixBits := UInt32.ofNat prefixBits
        suffixBits := UInt32.ofNat suffixBits
        blockOffset := 5
        recordBits := UInt32.ofNat recordBits }

end Format

end CellIndex
