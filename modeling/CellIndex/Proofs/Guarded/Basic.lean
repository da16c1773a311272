import CellIndex.Proofs.Bytes.Field
import CellIndex.Proofs.Search

/-!
# Guarded steps

A reader on a machine works in words and with places in a buffer.  A *guarded* step has no result
at all where a sum, a product or a difference leaves its word, or where a slice leaves its bytes
(`trap`); elsewhere it has the result or the error of a plain computation (`returns`).  So a reader
made of guarded steps is safe if it goes the way of a plain one (`Mirrors`).

A read of a field (`Bytes.read`) is no such step: it checks its place itself, and a place outside is
an error of the reader.  The lemmas of this file say when a step goes well.
-/

namespace CellIndex

/-- A computation that may stop with an error, or leave its words or bytes and have no result. -/
abbrev Guarded (α : Type) := ExceptT Error Option α

namespace Guarded

variable {α β : Type} {bytes : Bytes} {width a b start stop n : Nat}

/-- A plain computation. -/
def returns (x : Except Error α) : Guarded α := ExceptT.mk (some x)

/-- A step that does not go well. -/
def trap : Guarded α := ExceptT.mk none

@[simp] lemma returns_ok (a : α) : returns (.ok a) = pure a := rfl

/-- The result of a computation or its error, as a result. -/
def attempt (x : Guarded α) : Guarded (Except Error α) := ExceptT.mk (x.run.map .ok)

@[simp] lemma attempt_returns (x : Except Error α) : attempt (returns x) = pure x := rfl

@[simp] lemma attempt_pure (a : α) : attempt (pure a) = pure (.ok a) := rfl

/-- Plain steps one after the other. -/
lemma returns_bind (x : Except Error α) (g : α → Except Error β) :
    returns (x >>= g) = returns x >>= fun a => returns (g a) := by
  cases x <;> rfl

lemma mapM_returns {k : α → Guarded β} {g : α → Except Error β} {xs : List α}
    (h : ∀ a ∈ xs, k a = returns (g a)) : xs.mapM k = returns (xs.mapM g) := by
  induction xs with
  | nil => rfl
  | cons a xs ih =>
    rw [List.mapM_cons, List.mapM_cons, h a List.mem_cons_self,
      ih fun b hb => h b (List.mem_cons_of_mem _ hb), returns_bind]
    refine congrArg (returns (g a) >>= ·) (funext fun b => ?_)
    rw [returns_bind]
    rfl

lemma mapM_eq {k : α → Guarded β} {g : α → β} {xs : List α} (h : ∀ a ∈ xs, k a = pure (g a)) :
    xs.mapM k = pure (xs.map g) := by
  induction xs with
  | nil => rfl
  | cons a xs ih =>
    rw [List.mapM_cons, h a List.mem_cons_self, pure_bind,
      ih fun b hb => h b (List.mem_cons_of_mem _ hb), pure_bind, List.map_cons]

/-- A check in front of other steps. -/
lemma ite_returns_eq {c : Prop} [Decidable c] {x y : Except Error α} {k : Guarded α}
    (h : ¬ c → k = returns y) : (if c then returns x else k) = returns (if c then x else y) := by
  split
  · rfl
  · next hc => exact h hc

/-- A check in front of a pure step. -/
lemma ite_pure_eq {c : Prop} [Decidable c] {a b : α} {x : Guarded α}
    (h : ¬ c → x = pure b) : (if c then pure a else x) = pure (if c then a else b) := by
  split
  · rfl
  · next hc => exact h hc

/-- A guarded computation goes the way of a plain one: it never traps, it stops with the same error,
and its result stands for that of the plain one. -/
def Mirrors (R : α → β → Prop) (x : Guarded α) (y : Except Error β) : Prop :=
  (∃ e, x = returns (.error e) ∧ y = .error e) ∨ ∃ a b, x = pure a ∧ y = .ok b ∧ R a b

namespace Mirrors

variable {γ δ : Type} {R : α → β → Prop} {S : γ → δ → Prop} {x : Guarded α} {y : Except Error β}
  {k : α → Guarded γ} {l : β → Except Error δ}

lemma error (e : Error) : Mirrors R (returns (.error e)) (.error e) := .inl ⟨e, rfl, rfl⟩

lemma ok {a : α} {b : β} (h : R a b) : Mirrors R (pure a) (.ok b) := .inr ⟨a, b, rfl, rfl, h⟩

lemma returns (y : Except Error β) : Mirrors Eq (returns y) y := by
  cases y with
  | error e => exact error e
  | ok b => exact ok rfl

/-- Steps one after the other go the way of the plain steps. -/
lemma bind (h : Mirrors R x y) (hk : ∀ a b, R a b → Mirrors S (k a) (l b)) :
    Mirrors S (x >>= k) (y >>= l) := by
  rcases h with ⟨e, rfl, rfl⟩ | ⟨a, b, rfl, rfl, hab⟩
  · exact error e
  · rw [pure_bind]
    exact hk a b hab

end Mirrors

/-! ## Words -/

/-- A number that has to fit a word of `width` bits. -/
def inWord (width n : Nat) : Guarded Nat := if n < 2 ^ width then pure n else trap

/-- A number in a word, or nothing: here the reader itself looks whether it fits. -/
def checked (width n : Nat) : Option Nat := if n < 2 ^ width then some n else none

/-- A sum in a word. -/
def sum (width a b : Nat) : Guarded Nat := inWord width (a + b)

/-- A product in a word. -/
def product (width a b : Nat) : Guarded Nat := inWord width (a * b)

/-- A difference of numbers without sign. -/
def difference (a b : Nat) : Guarded Nat := if b ≤ a then pure (a - b) else trap

/-- A number without its lowest bits.  A word of 64 bits has at most 63 of them to lose. -/
def shiftRight (n bits : Nat) : Guarded Nat := if bits < 64 then pure (n / 2 ^ bits) else trap

/-- A remainder.  Nothing can be divided by zero. -/
def remainder (a b : Nat) : Guarded Nat := if 0 < b then pure (a % b) else trap

/-- A quotient.  Nothing can be divided by zero. -/
def quotient (a b : Nat) : Guarded Nat := if 0 < b then pure (a / b) else trap

/-- A number with zero bits below it, in a word of `width` bits.  A word has at most `width - 1`
places to move its bits, and none of them may be lost. -/
def shiftLeft (width n bits : Nat) : Guarded Nat :=
  if bits < width then inWord width (n * 2 ^ bits) else trap

/-- The largest number of some bits. -/
def largest (bits : Nat) : Guarded Nat :=
  if 64 ≤ bits then pure (2 ^ 64 - 1)
  else do
    let next ← shiftLeft 64 1 bits
    difference next 1

lemma checked_eq_some_iff (h : b < 2 ^ width) : checked width a = some b ↔ a = b := by
  rw [checked]
  split
  · rw [Option.some.injEq]
  · next ha => exact iff_of_false (by simp) (by rintro rfl; exact ha h)

/-- A number that does not fit a word has no sum that does. -/
lemma checked_bind (width a b : Nat) :
    ((checked width a).bind fun a => checked width (a + b)) = checked width (a + b) := by
  rw [checked]
  split
  · rfl
  · next h => rw [Option.bind_none, checked, if_neg (by omega)]

/-- A checked sum of a checked number. -/
lemma checked_bind_eq_some_iff (h : n < 2 ^ width) :
    ((checked width a).bind fun a => checked width (a + b)) = some n ↔ a + b = n := by
  rw [checked_bind, checked_eq_some_iff h]

lemma inWord_eq (h : n < 2 ^ width) : inWord width n = pure n := if_pos h

lemma sum_eq (h : a + b < 2 ^ width) : sum width a b = pure (a + b) := inWord_eq h

lemma product_eq (h : a * b < 2 ^ width) : product width a b = pure (a * b) := inWord_eq h

lemma difference_eq (h : b ≤ a) : difference a b = pure (a - b) := if_pos h

lemma shiftRight_eq {bits : Nat} (h : bits < 64) : shiftRight n bits = pure (n / 2 ^ bits) :=
  if_pos h

lemma remainder_eq (h : 0 < b) : remainder a b = pure (a % b) := if_pos h

lemma quotient_eq (h : 0 < b) : quotient a b = pure (a / b) := if_pos h

lemma shiftLeft_eq {bits : Nat} (hbits : bits < width) (h : n * 2 ^ bits < 2 ^ width) :
    shiftLeft width n bits = pure (n * 2 ^ bits) := by
  rw [shiftLeft, if_pos hbits, inWord_eq h]

lemma shiftLeft_one {bits : Nat} (h : bits < width) : shiftLeft width 1 bits = pure (2 ^ bits) := by
  have hpow : 2 ^ bits < 2 ^ width := Nat.pow_lt_pow_right (by decide) h
  rw [shiftLeft_eq h (by omega), Nat.one_mul]

lemma largest_eq {bits : Nat} (h : bits < 64) : largest bits = pure (2 ^ bits - 1) := by
  have hpos := Nat.two_pow_pos bits
  rw [largest, if_neg (Nat.not_le.2 h), shiftLeft_one h, pure_bind, difference_eq hpos]

/-! ## Bytes -/

/-- The bytes from one place up to another. -/
def slice (bytes : Bytes) (start stop : Nat) : Guarded Bytes :=
  if start ≤ stop ∧ stop ≤ bytes.length then pure (bytes.slice start (stop - start)) else trap

/-- The `width` bytes at a place. -/
def field (bytes : Bytes) (start width : Nat) : Guarded (FixedBytes width) :=
  if h : start + width ≤ bytes.length then
    pure ⟨bytes.slice start width, Bytes.length_slice h⟩
  else trap

/-- The number in the `width` bytes at a place. -/
def number (bytes : Bytes) (start width : Nat) : Guarded Nat :=
  (fun part : FixedBytes width => BigEndian.decode part.1) <$> field bytes start width

/-- The member of an array at a place. -/
def member (members : Array α) (index : Nat) : Guarded α :=
  match members[index]? with
  | some a => pure a
  | none => trap

lemma slice_eq (hs : start ≤ stop) (h : stop ≤ bytes.length) :
    slice bytes start stop = pure (bytes.slice start (stop - start)) := if_pos ⟨hs, h⟩

lemma field_eq (h : start + width ≤ bytes.length) :
    field bytes start width = pure ⟨bytes.slice start width, Bytes.length_slice h⟩ := dif_pos h

lemma number_eq (h : start + width ≤ bytes.length) :
    number bytes start width = pure (bytes.number start width) := by
  rw [number, field_eq h, map_pure]
  rfl

lemma member_eq {members : Array α} {index : Nat} {a : α} (h : members[index]? = some a) :
    member members index = pure a := by
  rw [member, h]

/-- A read inside its bytes. -/
lemma read_eq (hw : width ≤ 8) (h : start + width ≤ bytes.length) :
    bytes.read start width = .ok (bytes.number start width) := by
  rw [Bytes.read, if_neg (Nat.not_lt.2 hw), if_neg (Nat.not_lt.2 h)]

lemma byteAt_eq (start : Nat) {byte : UInt8} (h : bytes[start]? = some byte) :
    bytes.byteAt start = .ok byte := by
  rw [Bytes.byteAt, h]

/-! ## Searching -/

/-- The binary search for the border of `p`, with places in words. -/
def search (p : Nat → Guarded Bool) (low high : Nat) : Guarded Nat :=
  if low < high then
    let middle := low + (high - low) / 2
    inWord 64 middle >>= p >>= fun holds =>
      if holds then search p (middle + 1) high else search p low middle
  else pure low
termination_by high - low

lemma search_of_lt {p : Nat → Guarded Bool} {low high : Nat} {holds : Bool} (hlt : low < high)
    (hhigh : high < 2 ^ 64) (hp : p (low + (high - low) / 2) = pure holds) :
    search p low high = if holds then search p (low + (high - low) / 2 + 1) high
      else search p low (low + (high - low) / 2) := by
  rw [search, if_pos hlt]
  change (inWord 64 (low + (high - low) / 2) >>= p >>= _) = _
  rw [inWord_eq (by omega), pure_bind, hp, pure_bind]

/-- A search asks only for places in its bounds. -/
lemma search_eq {p : Nat → Guarded Bool} {q : Nat → Bool} {low high : Nat} (hhigh : high < 2 ^ 64)
    (hp : ∀ i, low ≤ i → i < high → p i = pure (q i)) :
    search p low high = pure (Search.bisect q low high) := by
  fun_induction Search.bisect q low high with
  | case1 low high hlt middle hq ih =>
    rw [search_of_lt hlt hhigh (hp middle (by omega) (by omega)), if_pos hq]
    exact ih hhigh fun i hi hi' => hp i (by omega) hi'
  | case2 low high hlt middle hq ih =>
    rw [search_of_lt hlt hhigh (hp middle (by omega) (by omega)), if_neg hq]
    exact ih (by omega) fun i hi hi' => hp i hi (by omega)
  | case3 low high hge => rw [search, if_neg hge]

end Guarded

end CellIndex
