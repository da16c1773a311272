import CellIndex.Format.Layout
import CellIndex.Bytes.Field

/-!
# Shared data of a suffix table

The prefix of the table, and the values of its ranges:

```text
prefix u32 | [value count u32 | value * value count]
```

The second part is only there if the format has values and the table has some.  A value that all
ranges share is written once.
-/

namespace CellIndex

/-- Prefix and values of a suffix table. -/
structure SharedData where
  /-- The prefix of all cells in the table. -/
  tablePrefix : UInt32
  /-- No value, one for all ranges, or one for each range. -/
  values : Array UInt32
deriving DecidableEq, Inhabited, Repr

namespace SharedData

/-- The values as they are stored: one if they are all equal. -/
def storedValues : List UInt32 → List UInt32
  | [] => []
  | first :: rest => if rest.all (· = first) then [first] else first :: rest

/-- The bytes of the values: their number, and each in the width of the format. -/
def valueSection (f : Format) (values : List UInt32) : Bytes :=
  BigEndian.encode 4 values.length ++
    values.flatMap fun value => BigEndian.encode f.valueBytes value.toNat

/-- The shared data of a table whose ranges have the given values, in their order.  The values are
left out if the format has none. -/
def encode (f : Format) (tablePrefix : UInt32) (values : List UInt32) : Except Error Bytes :=
  let front := BigEndian.encode 4 tablePrefix.toNat
  if f.valueBytes = 0 ∨ values = [] then .ok front
  else match values.find? (f.maxValue < ·.toNat) with
    | some value =>
      .error (.invalidArgument (.sharedValue value.toNat f.valueBytes f.maxValue))
    | none => .ok (front ++ valueSection f (storedValues values))

/-- Reads shared data.  Bytes after the last value are not looked at. -/
def decode (f : Format) (bytes : Bytes) : Except Error SharedData :=
  if bytes.length < 4 then .error (.corrupt (.sharedSize bytes.length))
  else
    let tablePrefix := UInt32.ofNat (bytes.number 0 4)
    if f.valueBytes = 0 ∨ bytes.length ≤ 8 then .ok ⟨tablePrefix, #[]⟩
    else
      let count := bytes.number 4 4
      if 0 < count ∧ bytes.length < 8 + f.valueBytes * count then
        .error (.corrupt (.sharedValues tablePrefix count bytes.length))
      else
        let values := BigEndian.decodeMany f.valueBytes count (bytes.drop 8)
        .ok ⟨tablePrefix, (values.map UInt32.ofNat).toArray⟩

/-- The value of the range at `index`: a single value belongs to every range. -/
def value? (shared : SharedData) (index : Nat) : Option UInt32 :=
  if shared.values.size = 1 then shared.values[0]? else shared.values[index]?

end SharedData

end CellIndex
