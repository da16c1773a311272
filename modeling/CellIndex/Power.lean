/-!
# Powers of natural numbers

Bounds and places of bits are powers of natural numbers.  All modules read `b ^ n` as the power that
is built into natural numbers, so that a law about such a power applies wherever one occurs.
-/

namespace CellIndex

/-- The built-in power of natural numbers comes before any other reading of `b ^ n`. -/
@[default_instance 20000]
instance (priority := 2000) natPow : Pow Nat Nat := instPowNat

/-- A power is a repeated product. -/
theorem natPow_succ (b n : Nat) : b ^ (n + 1) = b ^ n * b := rfl

end CellIndex
