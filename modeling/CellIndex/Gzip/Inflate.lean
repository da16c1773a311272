import CellIndex.Bytes
import CellIndex.Gzip.Huffman

/-!
# Compressed data

A compressed run is a sequence of blocks.  A block is stored as it is, or consists of symbols of a
prefix code, fixed or written in front of the symbols: bytes, or lengths of earlier output that is
repeated at a distance.

`inflate` gives whatever could be decoded, together with how the run came to its end.
-/

namespace CellIndex.Gzip

/-- How a compressed run came to its end. -/
inductive Ending
  /-- After its last block; the given bits follow. -/
  | complete (rest : Bits)
  /-- Too early. -/
  | stopped (stop : Stop)
deriving Repr

/-- The bits of a byte, the lowest first. -/
def bitsOfByte (byte : UInt8) : Bits := (List.range 8).map fun k => byte.toNat.testBit k

/-- The bits of a run of bytes. -/
def bitsOf (bytes : Bytes) : Bits := bytes.flatMap bitsOfByte

/-! ## Tables of the format -/

/-- Shortest length and number of extra bits for each length symbol from 257 on. -/
def lengthTable : Array (Nat × Nat) :=
  #[(3, 0), (4, 0), (5, 0), (6, 0), (7, 0), (8, 0), (9, 0), (10, 0), (11, 1), (13, 1), (15, 1),
    (17, 1), (19, 2), (23, 2), (27, 2), (31, 2), (35, 3), (43, 3), (51, 3), (59, 3), (67, 4),
    (83, 4), (99, 4), (115, 4), (131, 5), (163, 5), (195, 5), (227, 5), (258, 0)]

/-- Shortest distance and number of extra bits for each distance symbol. -/
def distanceTable : Array (Nat × Nat) :=
  #[(1, 0), (2, 0), (3, 0), (4, 0), (5, 1), (7, 1), (9, 2), (13, 2), (17, 3), (25, 3), (33, 4),
    (49, 4), (65, 5), (97, 5), (129, 6), (193, 6), (257, 7), (385, 7), (513, 8), (769, 8),
    (1025, 9), (1537, 9), (2049, 10), (3073, 10), (4097, 11), (6145, 11), (8193, 12), (12289, 12),
    (16385, 13), (24577, 13)]

/-- The order in which the lengths of the code for lengths are written. -/
def lengthOrder : List Nat := [16, 17, 18, 0, 8, 7, 9, 6, 10, 5, 11, 4, 12, 3, 13, 2, 14, 1, 15]

/-- The lengths of the fixed code for bytes and lengths. -/
def fixedLengths : List Nat :=
  List.replicate 144 8 ++ List.replicate 112 9 ++ List.replicate 24 7 ++ List.replicate 8 8

/-- The lengths of the fixed code for distances. -/
def fixedDistances : List Nat := List.replicate 32 5

/-! ## Code descriptions -/

/-- Reads `count` numbers of `width` bits each. -/
def readMany (width : Nat) : (count : Nat) → Bits → Except Stop (List Nat × Bits)
  | 0, bits => .ok ([], bits)
  | count + 1, bits => do
    let (n, bits) ← readBits width bits
    let (ns, bits) ← readMany width count bits
    return (n :: ns, bits)

/-- Reads code lengths until there are `total`, beginning with those in `done` in reverse.  Every
step adds at least one, so `total` steps are enough. -/
def readLengths (code : Code) (total : Nat) :
    (steps : Nat) → (done : List Nat) → Bits → Except Stop (List Nat × Bits)
  | 0, done, bits => .ok (done.reverse, bits)
  | steps + 1, done, bits =>
    if total ≤ done.length then
      if done.length = total then .ok (done.reverse, bits) else .error .damaged
    else do
      let (symbol, bits) ← code.read bits
      match symbol with
      | 16 =>
        match done with
        | [] => .error .damaged
        | previous :: _ =>
          let (n, bits) ← readBits 2 bits
          readLengths code total steps (List.replicate (n + 3) previous ++ done) bits
      | 17 =>
        let (n, bits) ← readBits 3 bits
        readLengths code total steps (List.replicate (n + 3) 0 ++ done) bits
      | 18 =>
        let (n, bits) ← readBits 7 bits
        readLengths code total steps (List.replicate (n + 11) 0 ++ done) bits
      | length => readLengths code total steps (length :: done) bits

/-- Reads the two codes in front of the symbols of a block. -/
def readCodes (bits : Bits) : Except Stop (Code × Code × Bits) := do
  let (n, bits) ← readBits 5 bits
  let (m, bits) ← readBits 5 bits
  let (k, bits) ← readBits 4 bits
  let lengthCount := n + 257
  let distanceCount := m + 1
  if 286 < lengthCount ∨ 30 < distanceCount then .error .damaged
  else
    let (widths, bits) ← readMany 3 (k + 4) bits
    let lengthCode ← Code.ofLengths <|
      (List.range 19).map fun symbol => ((lengthOrder.zip widths).lookup symbol).getD 0
    let total := lengthCount + distanceCount
    let (lengths, bits) ← readLengths lengthCode total (total + 1) [] bits
    let symbols ← Code.ofFewLengths (lengths.take lengthCount)
    let distances ← Code.ofFewLengths (lengths.drop lengthCount)
    return (symbols, distances, bits)

/-! ## Blocks -/

/-- Repeats `length` bytes of the output from `distance` back.  Before the beginning of the output
everything is taken to be zero. -/
def repeatBack (distance : Nat) : (length : Nat) → Array UInt8 → Array UInt8
  | 0, out => out
  | length + 1, out =>
    let byte := if distance ≤ out.size then out.getD (out.size - distance) 0 else 0
    repeatBack distance length (out.push byte)

/-- Reads the number that a symbol of a table and its extra bits stand for. -/
def readExtra (table : Array (Nat × Nat)) (symbol : Nat) (bits : Bits) :
    Except Stop (Nat × Bits) :=
  match table[symbol]? with
  | none => .error .damaged
  | some (base, extra) => (readBits extra bits).map fun (n, bits) => (base + n, bits)

/-- Reads a distance and repeats `length` bytes from there. -/
def readRepeat (distances : Code) (symbol : Nat) (bits : Bits) :
    Except Stop (Nat × Nat × Bits) := do
  let (length, bits) ← readExtra lengthTable (symbol - 257) bits
  let (symbol, bits) ← distances.read bits
  let (distance, bits) ← readExtra distanceTable symbol bits
  return (length, distance, bits)

/-- Decodes symbols up to the end of their block.  Every step reads at least one bit, so as many
steps as there are bits are enough. -/
def readSymbols (symbols distances : Code) :
    (steps : Nat) → Array UInt8 → Bits → Array UInt8 × Except Stop Bits
  | 0, out, _ => (out, .error .truncated)
  | steps + 1, out, bits =>
    match symbols.read bits with
    | .error stop => (out, .error stop)
    | .ok (symbol, bits) =>
      if symbol < 256 then readSymbols symbols distances steps (out.push (UInt8.ofNat symbol)) bits
      else if symbol = 256 then (out, .ok bits)
      else match readRepeat distances symbol bits with
        | .error stop => (out, .error stop)
        | .ok (length, distance, bits) =>
          readSymbols symbols distances steps (repeatBack distance length out) bits

/-- Copies up to `count` bytes from the bits to the output. -/
def copyBytes : (count : Nat) → Array UInt8 → Bits → Array UInt8 × Except Stop Bits
  | 0, out, bits => (out, .ok bits)
  | count + 1, out, bits =>
    match readBits 8 bits with
    | .error stop => (out, .error stop)
    | .ok (byte, bits) => copyBytes count (out.push (UInt8.ofNat byte)) bits

/-- Reads the length of a stored block, which is written twice, the second time inverted.  The
length begins with the next whole byte. -/
def readStoredLength (bits : Bits) : Except Stop (Nat × Bits) := do
  let (length, bits) ← readBits 16 (bits.drop (bits.length % 8))
  let (check, bits) ← readBits 16 bits
  if length + check = 0xFFFF then return (length, bits) else .error .damaged

/-- Decodes a block of a kind. -/
def readBlock (kind : Nat) (out : Array UInt8) (bits : Bits) : Array UInt8 × Except Stop Bits :=
  match kind with
  | 0 =>
    match readStoredLength bits with
    | .error stop => (out, .error stop)
    | .ok (length, bits) => copyBytes length out bits
  | 1 =>
    match Code.ofLengths fixedLengths, Code.ofLengths fixedDistances with
    | .ok symbols, .ok distances => readSymbols symbols distances bits.length out bits
    | _, _ => (out, .error .damaged)
  | 2 =>
    match readCodes bits with
    | .error stop => (out, .error stop)
    | .ok (symbols, distances, bits) => readSymbols symbols distances bits.length out bits
  | _ => (out, .error .damaged)

/-- Decodes blocks up to the last one, which is marked by the first of its three leading bits.
Every block takes at least one bit. -/
def inflateFrom : (steps : Nat) → Array UInt8 → Bits → Array UInt8 × Ending
  | 0, out, _ => (out, .stopped .truncated)
  | steps + 1, out, bits =>
    match readBits 3 bits with
    | .error stop => (out, .stopped stop)
    | .ok (head, bits) =>
      match readBlock (head / 2) out bits with
      | (out, .error stop) => (out, .stopped stop)
      | (out, .ok bits) =>
        if head % 2 = 1 then (out, .complete bits) else inflateFrom steps out bits

/-- Decodes a compressed run. -/
def inflate (bytes : Bytes) : Array UInt8 × Ending :=
  let bits := bitsOf bytes
  inflateFrom (bits.length + 1) #[] bits

end CellIndex.Gzip
