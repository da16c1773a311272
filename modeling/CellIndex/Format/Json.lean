import CellIndex.Format.Params
import CellIndex.Json.Printer
import CellIndex.Json.Reader

/-!
# Formats as JSON

A format is written as an object with one member for each parameter.  On reading, the members may
stand in any order among others that are not looked at, but none of them may come twice; the size of
values and the version may be left out.  A list of the parameters in their order is read as well.
Parameters that are no format are refused.
-/

namespace CellIndex

namespace Params

/-- The parameters under their keys, in their order. -/
def members (p : Params) : List (String × Json.Scalar) :=
  [("s2_level", .nat p.level.toNat),
    ("prefix_bit_count", .nat p.prefixBits.toNat),
    ("suffix_bit_count", .nat p.suffixBits.toNat),
    ("suffix_table_block_id_offset", .nat p.blockOffset.toNat),
    ("suffix_table_entry_bit_count", .nat p.recordBits.toNat),
    ("is_allowed_list", .bool p.allowedList),
    ("entry_value_size_in_bytes", .nat p.valueBytes.toNat),
    ("version_number", .nat p.version.toNat)]

/-- A value that is a natural number below `bound`. -/
def natBelow? (bound : Nat) : Json → Option Nat
  | .nat n => if n < bound then some n else none
  | _ => none

/-- A value that is a byte. -/
def byte? (value : Json) : Option UInt8 := (natBelow? (2 ^ 8) value).map UInt8.ofNat

/-- A value that is a word. -/
def word? (value : Json) : Option UInt32 := (natBelow? (2 ^ 32) value).map UInt32.ofNat

/-- A value that is a truth value. -/
def bool? : Json → Option Bool
  | .bool b => some b
  | _ => none

/-- The parameters in a list of six values, and of one or two more that may be left out. -/
def ofItems? (level prefixBits suffixBits blockOffset recordBits allowedList : Json)
    (valueBytes version : Option Json) : Option Params := do
  return {
    level := ← byte? level
    prefixBits := ← word? prefixBits
    suffixBits := ← word? suffixBits
    blockOffset := ← word? blockOffset
    recordBits := ← word? recordBits
    allowedList := ← bool? allowedList
    valueBytes := ← (valueBytes.map byte?).getD (some 0)
    version := ← (version.map word?).getD (some 0) }

/-- The member with a key, if there is one.  Two of them are refused. -/
def member? (members : List (Option (List Char) × Json)) (key : String) : Option (Option Json) :=
  match members.filter (·.1 = some key.toList) with
  | [] => some none
  | [(_, value)] => some (some value)
  | _ => none

/-- The parameters that a value tells. -/
def ofJson? : Json → Option Params
  | .object members => do
    if members.any (·.1.isNone) then none
    else
      ofItems? (← ← member? members "s2_level") (← ← member? members "prefix_bit_count")
        (← ← member? members "suffix_bit_count")
        (← ← member? members "suffix_table_block_id_offset")
        (← ← member? members "suffix_table_entry_bit_count")
        (← ← member? members "is_allowed_list")
        (← member? members "entry_value_size_in_bytes") (← member? members "version_number")
  | .array [a, b, c, d, e, f] => ofItems? a b c d e f none none
  | .array [a, b, c, d, e, f, g] => ofItems? a b c d e f (some g) none
  | .array [a, b, c, d, e, f, g, h] => ofItems? a b c d e f (some g) (some h)
  | _ => none

end Params

namespace Format

/-- The format as a JSON object on one line. -/
def toJson (f : Format) : List Char := Json.compact f.params.members

/-- Reads a format.  The parameters are judged as soon as they are complete, and only then the rest
of the text is checked to be blank. -/
def ofJson (text : List Char) : Except Error Format :=
  match Json.read? text with
  | none => .error (.json .malformed)
  | some (value, rest) =>
    match Params.ofJson? value with
    | none => .error (.json .malformed)
    | some params =>
      match ofParams params with
      | .error fault => .error (.json (.invalid fault))
      | .ok format =>
        if (Json.skipSpace rest).isEmpty then .ok format else .error (.json .malformed)

end Format

end CellIndex
