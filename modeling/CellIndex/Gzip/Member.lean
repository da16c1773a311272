import CellIndex.Digest.Crc32
import CellIndex.Gzip.Inflate

/-!
# Compressed files

A compressed file begins with two magic bytes and a header, and goes on with a compressed run and a
trailer that repeats checksum and length of the contents.  Only the first such member of a file is
read; what follows it is not looked at.

The contents are delivered as a stream: even if a fault is found later, what has been decoded before
it is there.  The file is taken in pieces of 32 KiB, and its contents are given up at the end of
every piece and of every window of 32 KiB.  Damage takes away what has been decoded since.
-/

namespace CellIndex.Gzip

/-- Bytes that are delivered one after the other, and whether all is well at their end. -/
structure Stream where
  /-- The bytes that are delivered. -/
  bytes : Bytes
  /-- Whether no fault follows them. -/
  whole : Bool
deriving DecidableEq, Inhabited, Repr

/-- The stream that fails at once. -/
def Stream.broken : Stream := ⟨[], false⟩

/-- The number of bytes of a file that are taken together. -/
def pieceSize : Nat := 32768

/-- The number of decoded bytes that are given up together. -/
def windowSize : Nat := 32768

/-- The number of bytes that are asked for together. -/
def requestSize : Nat := 8192

/-- Whether the bytes are those of a compressed file. -/
def isCompressed : Bytes → Bool
  | 0x1f :: 0x8b :: _ => true
  | _ => false

/-- What follows the first zero byte. -/
def skipText : Bytes → Option Bytes
  | [] => none
  | byte :: rest => if byte = 0 then some rest else skipText rest

/-- What follows a field whose length stands in front of it, the lower byte first. -/
def skipExtra : Bytes → Option Bytes
  | low :: high :: rest =>
    let length := low.toNat + 256 * high.toNat
    if length ≤ rest.length then some (rest.drop length) else none
  | _ => none

/-- What follows the optional parts of a header.  The last of them checks all bytes before it. -/
def skipOptions (all : Bytes) (flags : Nat) (rest : Bytes) : Option Bytes := do
  let rest ← if flags.testBit 2 then skipExtra rest else some rest
  let rest ← if flags.testBit 3 then skipText rest else some rest
  let rest ← if flags.testBit 4 then skipText rest else some rest
  if flags.testBit 1 then
    match rest with
    | low :: high :: after =>
      let check := (Crc32.checksum (all.take (all.length - rest.length))).toNat % 2 ^ 16
      if check = low.toNat + 256 * high.toNat then some after else none
    | _ => none
  else some rest

/-- What follows the header of a member: magic bytes, method eight, flags of which the upper three
must be zero, six bytes that are not looked at, and the parts that the flags announce. -/
def skipHeader (bytes : Bytes) : Option Bytes :=
  match bytes with
  | 0x1f :: 0x8b :: 8 :: flags :: _ :: _ :: _ :: _ :: _ :: _ :: rest =>
    if flags.toNat < 32 then skipOptions bytes flags.toNat rest else none
  | _ => none

/-- The number in four bytes, the lowest first. -/
def littleEndian (bytes : Bytes) : Nat := BigEndian.decode bytes.reverse

/-- Whether a trailer belongs to the contents. -/
def checkTrailer (contents trailer : Bytes) : Bool :=
  8 ≤ trailer.length &&
    littleEndian (trailer.take 4) == (Crc32.checksum contents).toNat &&
    littleEndian ((trailer.drop 4).take 4) == contents.length % 2 ^ 32

/-- The number of bytes that are decoded from whole pieces of a file before the piece with the
damage, of which there are at most `pieces`.  The header takes up the beginning of the file. -/
def sizeBeforeDamage (headerSize : Nat) (body : Bytes) : (pieces : Nat) → Nat
  | 0 => 0
  | pieces + 1 =>
    match inflate (body.take ((pieces + 1) * pieceSize - headerSize)) with
    | (out, .stopped .truncated) => out.size
    | _ => sizeBeforeDamage headerSize body pieces

/-- The number of bytes that are given up before damage is found.  Of the `decoded` bytes, `known`
are from earlier pieces.  The end of a window only counts if it does not lie within one request
after the end of a piece, since then the request fails as a whole. -/
def sizeGivenUp (decoded known : Nat) : Nat :=
  let window := (decoded - 1) / windowSize * windowSize
  if window < known + requestSize then known else window

/-- The contents of a compressed file. -/
def expand (bytes : Bytes) : Stream :=
  match skipHeader bytes with
  | none => .broken
  | some body =>
    match inflate body with
    | (out, .stopped .truncated) => ⟨out.toList, false⟩
    | (out, .stopped .damaged) =>
      let known := sizeBeforeDamage (bytes.length - body.length) body (bytes.length / pieceSize)
      ⟨out.toList.take (sizeGivenUp out.size known), false⟩
    | (out, .complete rest) =>
      let contents := out.toList
      ⟨contents, checkTrailer contents (body.drop (body.length - rest.length / 8))⟩

end CellIndex.Gzip
