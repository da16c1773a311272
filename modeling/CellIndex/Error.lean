import CellIndex.CellRange
import CellIndex.Text.Quoted

/-!
# Errors

Everything that can go wrong, as causes.  The constructors of `Error` are the kinds that a caller
tells apart; what exactly was wrong is the argument of the constructor.  `Error.message` is the
only place that puts an error into words.
-/

namespace CellIndex

/-- What is wrong with the parameters of a format. -/
inductive FormatFault
  /-- The level is deeper than the last one. -/
  | level (level : Nat)
  /-- The bits of the prefix and of the suffix do not add up to those of the level. -/
  | bitSum (prefixBits suffixBits dataBits level : Nat)
  /-- The number of bits of the prefix is out of bounds. -/
  | prefixBits (bits : Nat)
  /-- No bits are left for a suffix. -/
  | noSuffixBits
  /-- The first table would get the number of the header block. -/
  | noBlockOffset
  /-- The last table would get a number of more than 32 bits. -/
  | blockOffset (offset : Nat)
  /-- A record is no whole number of bytes, or cannot hold a suffix, or is too wide. -/
  | recordBits (bits suffixBits : Nat)
  /-- Values are too wide. -/
  | valueBytes (size : Nat)
  /-- Values are asked for in a list of what is denied. -/
  | valuesOfDenied
  /-- There is no ready-made format for the level. -/
  | noPreset (level : Nat)
deriving DecidableEq, Repr

/-- What is wrong with an argument. -/
inductive ArgumentFault
  /-- A number is to be written or read in more than eight bytes. -/
  | widthTooLarge (width : Nat)
  /-- A number does not fit the width that it is to be written in. -/
  | doesNotFit (value width : Nat)
  /-- A number is to be read from beyond the end. -/
  | readPastEnd (width offset length : Nat)
  /-- A byte is to be read from beyond the end. -/
  | bytePastEnd (offset length : Nat)
  /-- The parameters are no format. -/
  | format (fault : FormatFault)
  /-- A prefix has too many bits. -/
  | prefixBits (number bits : Nat)
  /-- A suffix has too many bits. -/
  | suffixBits (number bits : Nat)
  /-- A value is larger than the format allows. -/
  | sharedValue (value width limit : Nat)
  /-- A block of that number is there already. -/
  | blockTwice (id : UInt32)
  /-- The shared data of a block are longer than their length field can say. -/
  | sharedTooLong (id : UInt32) (length : Nat)
  /-- The writer failed before. -/
  | writerUnusable
  /-- A range has no value, but the format asks for one. -/
  | rangeWithoutValue (range : CellRange)
  /-- The value of a range is larger than the format allows. -/
  | rangeValue (range : CellRange) (value limit : Nat)
  /-- There is no such way to write cells. -/
  | cellFormat (name : List Char)
deriving DecidableEq, Repr

/-- Why a range cannot be stored. -/
inductive RangeFault
  /-- It holds no cell. -/
  | empty
  /-- Its bounds are no cells of the level. -/
  | offLevel (level : Nat)
  /-- It begins before the end of the range before it. -/
  | unsorted
  /-- The table of its prefix has been written already. -/
  | tableWritten (tablePrefix : UInt32)
  /-- It goes on beyond its prefix. -/
  | pastTable (tablePrefix : UInt32)
  /-- It has more cells than a record can say. -/
  | tooLong (length limit : Nat)
  /-- It has no cells, or more than a record can say. -/
  | recordLength (length limit : Nat)
deriving DecidableEq, Repr

/-- Why a file cannot be what it seems to be. -/
inductive Corruption
  /-- The header block is too short. -/
  | headerBlockSize (size : Nat)
  /-- The header block holds parameters that are no format. -/
  | headerBlock (fault : FormatFault)
  /-- There is no header block. -/
  | noHeaderBlock
  /-- A directory entry is too short. -/
  | directoryEntry
  /-- The directory does not reach from its offset to the end of the file. -/
  | directoryEnd (count offset size : Nat)
  /-- A block reaches out of the part of the file that holds blocks. -/
  | blockOutside (id : UInt32)
  /-- The blocks are not in ascending order. -/
  | directoryOrder (id previous : UInt32)
  /-- A block has a number that no suffix table of the format has. -/
  | strayBlock (id : UInt32)
  /-- Shared data are too short. -/
  | sharedSize (size : Nat)
  /-- Shared data are shorter than the number of their values asks for. -/
  | sharedValues (tablePrefix : UInt32) (count size : Nat)
  /-- A block does not consist of records. -/
  | recordSize (id : UInt32) (size recordBytes : Nat)
  /-- A block has more than one value, but not one for each range. -/
  | valueCount (id : UInt32) (ranges values : Nat)
  /-- A block says that it is the table of another prefix. -/
  | otherPrefix (id found expected : UInt32)
deriving DecidableEq, Repr

/-- What is wrong with a cell or a list of cells. -/
inductive InputFault
  /-- The text is no token. -/
  | token (text : List Char)
  /-- The text is no decimal id. -/
  | cellId (text : List Char)
  /-- The text is no decimal value. -/
  | value (text : List Char)
  /-- A line is wrong. -/
  | line (number : Nat) (fault : InputFault)
  /-- An id is no cell. -/
  | notACell (id : CellId)
  /-- A cell is finer than the level of the file. -/
  | tooFine (cell : CellId) (level : Nat)
  /-- A cell has another value than cells that it overlaps. -/
  | conflict (cell : CellId) (value other : Option UInt32)
deriving DecidableEq, Repr

/-- Why a text is no format. -/
inductive JsonFault
  /-- The text is no object with the parameters of a format. -/
  | malformed
  /-- The parameters are no format. -/
  | invalid (fault : FormatFault)
deriving DecidableEq, Repr

/-- What can go wrong. -/
inductive Error
  /-- An argument is out of bounds or does not fit the others. -/
  | invalidArgument (fault : ArgumentFault)
  /-- A range cannot be stored. -/
  | invalidRange (range : CellRange) (fault : RangeFault)
  /-- There is no entry at an index. -/
  | indexOutOfBounds (index length : Nat)
  /-- A file does not begin as a table does. -/
  | invalidMagic
  /-- A file is of a later version. -/
  | unsupportedVersion (version : Nat)
  /-- A file does not have the checksum that it says it has. -/
  | checksumMismatch
  /-- A file is too short for a header. -/
  | invalidHeaderSize (expected actual : Nat)
  /-- A file is inconsistent. -/
  | corrupt (fault : Corruption)
  /-- A cell or a list of cells is wrong. -/
  | invalidInput (fault : InputFault)
  /-- A file cannot be read or written. -/
  | io
  /-- A text is no format. -/
  | json (fault : JsonFault)
deriving DecidableEq, Repr

/-- The argument is not valid: the fault is that of a format. -/
def FormatFault.error (fault : FormatFault) : Error := .invalidArgument (.format fault)

/-- A value in a message about values. -/
def optionText : Option UInt32 → String
  | none => "None"
  | some value => s!"Some({value.toNat})"

/-- The fault of a format in words. -/
def FormatFault.message : FormatFault → String
  | .level k => s!"s2_level={k} must be in [0, 30]"
  | .bitSum p s dataBits k =>
    s!"prefix_bit_count={p} + suffix_bit_count={s} must equal {dataBits} at level {k}"
  | .prefixBits p => s!"prefix_bit_count={p} must be in [3, 32]"
  | .noSuffixBits => "suffix_bit_count must be positive"
  | .noBlockOffset => "suffix_table_block_id_offset must be > 0"
  | .blockOffset offset => s!"suffix_table_block_id_offset={offset} overflows block IDs"
  | .recordBits bits s =>
    s!"suffix_table_entry_bit_count={bits} must be a multiple of 8 in ({s}, 64]"
  | .valueBytes size => s!"entry_value_size_in_bytes={size} must be in [0, 4]"
  | .valuesOfDenied => "entry values are only supported for allowed lists"
  | .noPreset k => s!"no preset format for s2_level={k}"

/-- The fault of an argument in words. -/
def ArgumentFault.message : ArgumentFault → String
  | .widthTooLarge width => s!"value size {width} exceeds 8 bytes"
  | .doesNotFit value width => s!"value {value} does not fit in {width} bytes"
  | .readPastEnd width offset length =>
    s!"read of {width} bytes at offset {offset} exceeds length {length}"
  | .bytePastEnd offset length => s!"byte offset {offset} out of bounds (size {length})"
  | .format fault => fault.message
  | .prefixBits number bits => s!"prefix={number} exceeds {bits} bits"
  | .suffixBits number bits => s!"suffix={number} exceeds {bits} bits"
  | .sharedValue value width limit =>
    s!"entry value {value} does not fit in {width} bytes (max {limit})"
  | .blockTwice id => s!"block {id.toNat} written twice"
  | .sharedTooLong id length => s!"shared data for block {id.toNat} is too large ({length} bytes)"
  | .writerUnusable => "range file writer is unusable after an earlier failure"
  | .rangeWithoutValue range => s!"range {range.describe} has no entry value"
  | .rangeValue range value limit =>
    s!"entry value {value} of range {range.describe} exceeds {limit}"
  | .cellFormat name => "unknown cell ID format: " ++ String.ofList name

/-- The fault of a range in words. -/
def RangeFault.message (range : CellRange) : RangeFault → String
  | .empty => s!"range {range.describe} is empty or reversed"
  | .offLevel k => s!"range {range.describe} is not made of level {k} cells"
  | .unsorted => s!"range {range.describe} is unsorted or overlaps the previous range"
  | .tableWritten p =>
    s!"range {range.describe} starts in prefix {p.toNat}, which is already written"
  | .pastTable p => s!"range {range.describe} extends past the end of prefix {p.toNat}"
  | .tooLong length limit =>
    s!"range {range.describe} holds {length} cells, more than the {limit} a record can encode"
  | .recordLength length limit =>
    s!"range {range.describe} has length {length}, expected 1..={limit}"

/-- The fault of a file in words. -/
def Corruption.message : Corruption → String
  | .headerBlockSize size => s!"header block is {size} bytes, expected 15"
  | .headerBlock fault => "header block: invalid argument: " ++ fault.message
  | .noHeaderBlock => "missing header block"
  | .directoryEntry => "directory entry truncated"
  | .directoryEnd count offset size =>
    s!"directory of {count} blocks at offset {offset} does not end the file ({size} bytes)"
  | .blockOutside id => s!"block {id.toNat} lies outside the data section"
  | .directoryOrder id previous =>
    s!"directory not sorted: block {id.toNat} follows {previous.toNat}"
  | .strayBlock id => s!"block {id.toNat} is not a suffix table of this format"
  | .sharedSize size => s!"shared data is {size} bytes"
  | .sharedValues p count size =>
    s!"shared data for prefix {p.toNat} claims {count} values in {size} bytes"
  | .recordSize id size recordBytes =>
    s!"block {id.toNat} holds {size} bytes, not a whole number of {recordBytes}-byte records"
  | .valueCount id ranges values =>
    s!"block {id.toNat} has {ranges} ranges but {values} entry values"
  | .otherPrefix id found expected =>
    s!"block {id.toNat} holds prefix {found.toNat}, expected {expected.toNat}"

/-- The fault of a list of cells in words. -/
def InputFault.message : InputFault → String
  | .token text => "invalid S2 token: " ++ Quoted.quote text
  | .cellId text => "invalid cell ID: " ++ Quoted.quote text
  | .value text => "invalid entry value: " ++ Quoted.quote text
  | .line number fault => s!"line {number}: invalid input: " ++ fault.message
  | .notACell id => s!"{id.toNat} is not a valid S2 cell ID"
  | .tooFine cell k => s!"cell {cell.describe} is finer than level {k}"
  | .conflict cell v other =>
    s!"cell {cell.describe} has entry value " ++ optionText v ++
      ", but overlaps cells with " ++ optionText other

/-- The fault of a format's text in words. -/
def JsonFault.message : JsonFault → String
  | .malformed => "malformed format"
  | .invalid fault => "invalid argument: " ++ fault.message

/-- An error in words. -/
def Error.message : Error → String
  | .invalidArgument fault => "invalid argument: " ++ fault.message
  | .invalidRange range fault => "invalid range: " ++ fault.message range
  | .indexOutOfBounds index length => s!"index {index} out of bounds (len {length})"
  | .invalidMagic => "invalid magic bytes: expected SATS2RNG header"
  | .unsupportedVersion version => s!"unsupported format version: {version}"
  | .checksumMismatch => "checksum mismatch"
  | .invalidHeaderSize expected actual =>
    s!"invalid header size: expected {expected}, got {actual}"
  | .corrupt fault => "corrupt file: " ++ fault.message
  | .invalidInput fault => "invalid input: " ++ fault.message
  | .io => "IO error"
  | .json fault => "JSON error: " ++ fault.message

end CellIndex
