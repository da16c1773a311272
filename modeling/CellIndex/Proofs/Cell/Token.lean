import CellIndex.Cell.Token
import Mathlib.Data.List.TakeWhile
import Mathlib.Tactic.Common

/-!
# Reading tokens

A token is the sixteen digits of an id without the zeros at the end (`exists_token_append`).  On
reading, every zero behind digits multiplies their number by sixteen (`decode?_append_zeros`), so
the number of dropped zeros, which the length of the token tells, makes up for them.  Hence every id
is read back from its token (`ofToken?_token`).
-/

namespace CellIndex

namespace Hexadecimal

variable {c : Char} {width n : Nat} {text : List Char}

/-- The digits of a number are digits of numbers below sixteen. -/
lemma exists_digit_of_mem_encode (h : c ∈ encode width n) : ∃ d < 16, c = digit d := by
  induction width generalizing n with
  | zero => exact absurd h List.not_mem_nil
  | succ width ih =>
    rw [encode, List.mem_append, List.mem_singleton] at h
    rcases h with h | rfl
    · exact ih h
    · exact ⟨n % 16, Nat.mod_lt _ (by decide), rfl⟩

/-- Zeros behind digits multiply their number. -/
lemma decode?_append_zeros (text : List Char) (count : Nat) :
    decode? (text ++ List.replicate count '0') = (decode? text).map (· * 16 ^ count) := by
  induction count with
  | zero => simp
  | succ count ih =>
    have hzero : digitValue? '0' = some 0 := by decide
    rw [List.replicate_succ', ← List.append_assoc, decode?, List.foldlM_append, ← decode?, ih]
    cases decode? text with
    | none => rfl
    | some n =>
      simp only [Option.map_some, Option.bind_eq_bind, Option.bind_some, List.foldlM_cons, hzero,
        List.foldlM_nil, Option.pure_def, Nat.add_zero, Nat.pow_succ, Nat.mul_assoc]

end Hexadecimal

namespace CellId

open Hexadecimal

variable {id : CellId} {c : Char}

/-- The token of an id other than zero is its sixteen digits without the zeros at the end. -/
lemma exists_token_append (h : id.toNat ≠ 0) :
    ∃ count, encode 16 id.toNat = id.token ++ List.replicate count '0' := by
  let digits := (encode 16 id.toNat).reverse
  have hzeros : ∀ c ∈ (digits.takeWhile (· = '0')).reverse, c = '0' := by
    intro c hc
    simpa using List.mem_takeWhile_imp (List.mem_reverse.1 hc)
  refine ⟨(digits.takeWhile (· = '0')).reverse.length, ?_⟩
  rw [token, if_neg h, ← List.eq_replicate_of_mem hzeros, ← List.reverse_append,
    List.takeWhile_append_dropWhile, List.reverse_reverse]

/-- The characters of a token are digits, or the letter that stands for zero. -/
lemma mem_token (h : c ∈ id.token) : c = 'X' ∨ ∃ d < 16, c = digit d := by
  by_cases hid : id.toNat = 0
  · rw [token, if_pos hid] at h
    exact .inl (List.mem_singleton.1 h)
  · obtain ⟨count, hcount⟩ := exists_token_append hid
    exact .inr (exists_digit_of_mem_encode (hcount ▸ List.mem_append_left _ h))

/-- The digits of a token spell the id, but for the zeros behind them. -/
lemma exists_decode?_token (h : id.toNat ≠ 0) : id.token.length ≤ 16 ∧
    ∃ n, decode? id.token = some n ∧ n * 16 ^ (16 - id.token.length) = id.toNat := by
  obtain ⟨count, hcount⟩ := exists_token_append h
  have hlength := congrArg List.length hcount
  rw [length_encode, List.length_append, List.length_replicate] at hlength
  have hread := @decode?_encode 16 id.toNat id.toNat_lt
  rw [hcount, decode?_append_zeros, Option.map_eq_some_iff] at hread
  obtain ⟨n, hn, hmul⟩ := hread
  refine ⟨by omega, n, hn, ?_⟩
  rwa [show 16 - id.token.length = count by omega]

lemma token_ne_nil (id : CellId) : id.token ≠ [] := by
  by_cases h : id.toNat = 0
  · rw [token, if_pos h]
    exact List.cons_ne_nil _ _
  · obtain ⟨-, n, hn, hmul⟩ := exists_decode?_token h
    intro hnil
    rw [hnil] at hn hmul
    obtain rfl : 0 = n := Option.some.inj hn
    rw [Nat.zero_mul] at hmul
    exact h hmul.symm

/-- An id is read back from its token. -/
lemma ofToken?_token (id : CellId) : ofToken? id.token = some id := by
  by_cases h : id.toNat = 0
  · rw [token, if_pos h, ofToken?, if_pos (.inl rfl), ← h, ofNat_toNat]
  · obtain ⟨hlength, n, hn, hmul⟩ := exists_decode?_token h
    have hletter : ¬ (id.token = ['X'] ∨ id.token = ['x']) := by
      rintro (hX | hx)
      · rw [hX] at hn
        exact absurd hn (by simp [decode?, digitValue?])
      · rw [hx] at hn
        exact absurd hn (by simp [decode?, digitValue?])
    rw [ofToken?, if_neg hletter, if_neg, hn, Option.map_some, hmul, ofNat_toNat]
    rintro (hempty | hlong)
    · exact token_ne_nil id (List.isEmpty_iff.1 hempty)
    · omega

end CellId

end CellIndex
