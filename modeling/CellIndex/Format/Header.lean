import CellIndex.Format.Layout
import CellIndex.Bytes

/-!
# The header block

A range file says its own format in fifteen bytes, in block zero:

```text
layout u8 | version u32 | level u8 | prefix bits u8 | suffix bits u8 |
block offset u32 | record bits u8 | flags u8 | value bytes u8
```

The layout of the block is that of version one.  The lowest flag tells a list of allowed cells; the
other flags are not looked at.
-/

namespace CellIndex.Format

/-- The number of the block that holds the format. -/
def headerBlockId : UInt32 := 0

/-- The version of the layout of the header block. -/
def headerLayout : UInt8 := 1

/-- The header block of a format. -/
def header (f : Format) : Bytes :=
  let p := f.params
  [headerLayout] ++ BigEndian.encode 4 p.version.toNat ++
    [p.level, p.prefixBits.toUInt8, p.suffixBits.toUInt8] ++
    BigEndian.encode 4 p.blockOffset.toNat ++
    [p.recordBits.toUInt8, if p.allowedList then 1 else 0, p.valueBytes]

/-- The format that a header block tells.  Bytes after the fifteenth are not looked at. -/
def ofHeader (bytes : Bytes) : Except Error Format :=
  match bytes with
  | layout :: v₃ :: v₂ :: v₁ :: v₀ :: level :: prefixBits :: suffixBits :: o₃ :: o₂ :: o₁ :: o₀ ::
      recordBits :: flags :: valueBytes :: _ =>
    if headerLayout < layout then .error (.unsupportedVersion layout.toNat)
    else
      let params : Params :=
        { level, valueBytes
          version := UInt32.ofNat (BigEndian.decode [v₃, v₂, v₁, v₀])
          prefixBits := prefixBits.toUInt32
          suffixBits := suffixBits.toUInt32
          blockOffset := UInt32.ofNat (BigEndian.decode [o₃, o₂, o₁, o₀])
          recordBits := recordBits.toUInt32
          allowedList := flags.toNat % 2 = 1 }
      match ofParams params with
      | .ok format => .ok format
      | .error fault => .error (.corrupt (.headerBlock fault))
  | short => .error (.corrupt (.headerBlockSize short.length))

end CellIndex.Format
