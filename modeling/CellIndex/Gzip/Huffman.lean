import CellIndex.Power

/-!
# Prefix codes

A code assigns bit strings to numbers such that no string begins another one.  It is kept as a
binary tree, and reading a number walks from the root to a leaf.  `Code.ofLengths` builds the code
in which shorter strings come first and strings of one length ascend with their numbers, so that
the lengths alone determine it.
-/

namespace CellIndex.Gzip

/-- A run of bits that is still to be read. -/
abbrev Bits := List Bool

/-- Why reading bits came to an end before it was done. -/
inductive Stop
  /-- There are no more bits. -/
  | truncated
  /-- The bits spell nothing. -/
  | damaged
deriving DecidableEq, Repr

/-- Reads a number of `count` bits, the lowest first. -/
def readBits : (count : Nat) → Bits → Except Stop (Nat × Bits)
  | 0, bits => .ok (0, bits)
  | _ + 1, [] => .error .truncated
  | count + 1, bit :: bits =>
    (readBits count bits).map fun (n, rest) => (2 * n + bit.toNat, rest)

/-- A prefix code as a tree. -/
inductive Code
  /-- Bit strings that mean nothing. -/
  | unused
  /-- The end of the bit string of a number. -/
  | leaf (symbol : Nat)
  /-- A choice by the next bit. -/
  | node (zero one : Code)
deriving Inhabited, Repr

namespace Code

/-- Reads one number. -/
def read : Code → Bits → Except Stop (Nat × Bits)
  | unused, _ => .error .damaged
  | leaf symbol, bits => .ok (symbol, bits)
  | node _ _, [] => .error .truncated
  | node zero _, false :: bits => zero.read bits
  | node _ one, true :: bits => one.read bits

/-- The code in which `bits` mean `symbol` as well. -/
def insert (symbol : Nat) : (bits : List Bool) → Code → Code
  | [], _ => leaf symbol
  | false :: bits, node zero one => node (insert symbol bits zero) one
  | true :: bits, node zero one => node zero (insert symbol bits one)
  | false :: bits, _ => node (insert symbol bits unused) unused
  | true :: bits, _ => node unused (insert symbol bits unused)

/-- The longest bit string of a code. -/
def maxLength : Nat := 15

/-- The `length` lowest bits of `n`, the highest first. -/
def bitString : (length n : Nat) → List Bool
  | 0, _ => []
  | length + 1, n => bitString length (n / 2) ++ [decide (n % 2 = 1)]

/-- The numbers with a bit string of the given length, ascending. -/
def symbolsOf (lengths : List Nat) (length : Nat) : List Nat :=
  (lengths.zipIdx.filter (·.1 = length)).map Prod.snd

/-- Adds the bit strings of one length after another, each the successor of the one before. -/
def insertAll (lengths : List Nat) : (steps length next : Nat) → Code → Code
  | 0, _, _, code => code
  | steps + 1, length, next, code =>
    let symbols := symbolsOf lengths length
    let code := (symbols.zip (List.range' next symbols.length)).foldl
      (fun code (symbol, n) => insert symbol (bitString length n) code) code
    insertAll lengths steps (length + 1) (2 * (next + symbols.length)) code

/-- The share of all bit strings that begin with one of the code, in units of `2 ^ -15`. -/
def coverage (lengths : List Nat) : Nat :=
  lengths.foldr (fun length sum => if length = 0 then sum else 2 ^ (maxLength - length) + sum) 0

/-- Whether every long enough bit string begins with exactly one of the code. -/
def Complete (lengths : List Nat) : Prop := coverage lengths = 2 ^ maxLength

instance (lengths : List Nat) : Decidable (Complete lengths) :=
  inferInstanceAs (Decidable (coverage lengths = 2 ^ maxLength))

/-- Whether at most one number has a bit string, and that is a single bit. -/
def AtMostOneBit (lengths : List Nat) : Prop :=
  let used := lengths.filter (· ≠ 0)
  used = [] ∨ used = [1]

instance (lengths : List Nat) : Decidable (AtMostOneBit lengths) :=
  inferInstanceAs (Decidable (_ ∨ _))

/-- The code with the given lengths, where the length zero means no bit string.  At least one bit
is read even if no number has a bit string. -/
def withLengths (lengths : List Nat) : Code :=
  insertAll lengths maxLength 1 0 (node unused unused)

/-- The code with the given lengths, which leave no bit string unused. -/
def ofLengths (lengths : List Nat) : Except Stop Code :=
  if Complete lengths then .ok (withLengths lengths) else .error .damaged

/-- The code with the given lengths, which leave no bit string unused unless at most one number has
a bit string. -/
def ofFewLengths (lengths : List Nat) : Except Stop Code :=
  if Complete lengths ∨ AtMostOneBit lengths then .ok (withLengths lengths) else .error .damaged

end Code

end CellIndex.Gzip
