import CellIndex.Power

/-!
# Hexadecimal numbers

Numbers in base sixteen, written with lower case letters and read in either case.
-/

namespace CellIndex.Hexadecimal

/-- The lower case digit for a number below sixteen. -/
def digit (n : Nat) : Char :=
  Char.ofNat (if n < 10 then '0'.toNat + n else 'a'.toNat + (n - 10))

/-- The number that a digit of either case stands for. -/
def digitValue? (c : Char) : Option Nat :=
  if '0' ≤ c && c ≤ '9' then some (c.toNat - '0'.toNat)
  else if 'a' ≤ c && c ≤ 'f' then some (c.toNat - 'a'.toNat + 10)
  else if 'A' ≤ c && c ≤ 'F' then some (c.toNat - 'A'.toNat + 10)
  else none

/-- The lowest `width` digits of `n`, most significant first. -/
def encode : (width n : Nat) → List Char
  | 0, _ => []
  | width + 1, n => encode width (n / 16) ++ [digit (n % 16)]

/-- The digits of `n`, most significant first, without zeros in front (`0` alone for zero). -/
def shortest (n : Nat) : List Char :=
  Nat.toDigits 16 n

/-- The number that `text` spells, if all its characters are digits. -/
def decode? (text : List Char) : Option Nat :=
  text.foldlM (fun n c => (digitValue? c).map (n * 16 + ·)) 0

@[simp] theorem length_encode (width n : Nat) : (encode width n).length = width := by
  induction width generalizing n with
  | zero => rfl
  | succ width ih => simp [encode, ih]

/-- A digit stands for its number. -/
theorem digitValue?_digit : ∀ n < 16, digitValue? (digit n) = some n := by decide

/-- Digits are read back. -/
theorem decode?_encode {width n : Nat} (h : n < 16 ^ width) :
    decode? (encode width n) = some n := by
  induction width generalizing n with
  | zero => simp at h; simp [encode, decode?, h]
  | succ width ih =>
    have hq : n / 16 < 16 ^ width := by
      rw [Nat.pow_succ] at h
      omega
    have hd := digitValue?_digit (n % 16) (Nat.mod_lt _ (by decide))
    have := ih hq
    simp only [decode?] at this ⊢
    simp only [encode, List.foldlM_append, this, List.foldlM_cons, List.foldlM_nil, hd,
      Option.map_some, Option.bind_eq_bind, Option.bind_some, Option.pure_def]
    congr 1
    omega

end CellIndex.Hexadecimal
