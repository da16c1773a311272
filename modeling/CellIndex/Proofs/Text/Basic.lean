import CellIndex.CellList
import Mathlib.Tactic.Common

/-!
# Texts and their bytes

Blanks around a text are trimmed (`trim_append`), a number is read back from its decimal digits
(`readNat?_toDigits`), and characters are read back from their bytes (`textOf_utf8`).  Only the line
feed itself has a line feed among its bytes (`lineFeed_not_mem_utf8`), so a text may be cut into
lines before it is decoded.
-/

namespace CellIndex

/-! ## Blanks -/

namespace Text

variable {before after text : List Char}

lemma dropWhile_isBlank (hhead : ∀ c ∈ text.head?, isBlank c = false) :
    text.dropWhile isBlank = text := by
  cases text with
  | nil => rfl
  | cons c rest => rw [List.dropWhile_cons, hhead c rfl, if_neg Bool.false_ne_true]

/-- Blanks around a text are trimmed, and nothing else if no blank stands at its ends. -/
lemma trim_append (hbefore : ∀ c ∈ before, isBlank c = true)
    (hafter : ∀ c ∈ after, isBlank c = true) (hhead : ∀ c ∈ text.head?, isBlank c = false)
    (hlast : ∀ c ∈ text.getLast?, isBlank c = false) : trim (before ++ text ++ after) = text := by
  have hafter' : ∀ c ∈ after.reverse, isBlank c = true := fun c hc =>
    hafter c (List.mem_reverse.1 hc)
  rw [trim, List.append_assoc, List.dropWhile_append_of_pos hbefore]
  cases text with
  | nil =>
    have hnone := @List.dropWhile_append_of_pos _ isBlank after [] hafter
    rw [List.append_nil] at hnone
    rw [List.nil_append, hnone]
    rfl
  | cons c rest =>
    rw [@dropWhile_isBlank (c :: rest ++ after) hhead, List.reverse_append,
      List.dropWhile_append_of_pos hafter', dropWhile_isBlank (by rwa [List.head?_reverse]),
      List.reverse_reverse]

end Text

/-! ## Decimal digits -/

namespace Decimal

variable {c : Char} {n limit : Nat}

lemma isDigit_of_mem_toDigits (h : c ∈ Nat.toDigits 10 n) : isDigit c = true := by
  have hdigit := Nat.isDigit_of_mem_toDigits (by decide) (by decide) h
  rw [Char.isDigit, Bool.and_eq_true, decide_eq_true_eq, decide_eq_true_eq] at hdigit
  rw [isDigit, Bool.and_eq_true, decide_eq_true_eq, decide_eq_true_eq]
  exact hdigit

lemma value_toDigits (n : Nat) : value (Nat.toDigits 10 n) = n := by
  have hread := Nat.ofDigitChars_toDigits (b := 10) (n := n) (by decide) (by decide)
  rw [Nat.ofDigitChars] at hread
  simpa only [value, Nat.mul_comm 10] using hread

lemma readDigits?_toDigits (n : Nat) : readDigits? (Nat.toDigits 10 n) = some n := by
  have hall : (Nat.toDigits 10 n).all isDigit = true :=
    List.all_eq_true.2 fun c hc => isDigit_of_mem_toDigits hc
  have hne : (Nat.toDigits 10 n).isEmpty = false := by
    rw [List.isEmpty_eq_false_iff]
    exact Nat.toDigits_ne_nil
  rw [readDigits?, hall, hne, value_toDigits]
  rfl

/-- A number up to the limit is read back from its digits. -/
lemma readNat?_toDigits (h : n ≤ limit) : readNat? limit (Nat.toDigits 10 n) = some n := by
  rw [readNat?, readDigits?_toDigits]
  · simpa using h
  · intro rest hplus
    have hdigit : isDigit '+' = true := isDigit_of_mem_toDigits (hplus ▸ List.mem_cons_self)
    exact absurd hdigit (by decide)

end Decimal

/-! ## UTF-8 -/

namespace Text

/-- The bytes that spell characters in UTF-8. -/
def utf8 (text : List Char) : Bytes := text.flatMap String.utf8EncodeChar

lemma utf8_append (a b : List Char) : utf8 (a ++ b) = utf8 a ++ utf8 b := List.flatMap_append

/-- The bytes of characters beyond ASCII are no ASCII characters. -/
lemma eq_of_lineFeed_mem {c : Char} (h : CellList.lineFeed ∈ String.utf8EncodeChar c) :
    c = '\n' := by
  have hbyte : ∀ n : Nat, CellList.lineFeed = UInt8.ofNat n → n % 256 = 10 := by
    intro n hn
    have hnat := congrArg UInt8.toNat hn
    rw [UInt8.toNat_ofNat'] at hnat
    exact hnat.symm
  simp only [String.utf8EncodeChar] at h
  split at h
  · next hascii =>
    have hten := hbyte _ (List.mem_singleton.1 h)
    apply Char.toNat_inj.1
    change c.val.toNat = 10
    omega
  · -- a first byte of several is at least 192, and those behind it are at least 128
    exfalso
    split at h
    · simp only [List.mem_cons, List.not_mem_nil, or_false] at h
      rcases h with h | h <;> have := hbyte _ h <;> omega
    · split at h
      · simp only [List.mem_cons, List.not_mem_nil, or_false] at h
        rcases h with h | h | h <;> have := hbyte _ h <;> omega
      · simp only [List.mem_cons, List.not_mem_nil, or_false] at h
        rcases h with h | h | h | h <;> have := hbyte _ h <;> omega

/-- Only line feeds have line feeds among their bytes. -/
lemma lineFeed_not_mem_utf8 {text : List Char} (h : '\n' ∉ text) :
    CellList.lineFeed ∉ utf8 text := by
  intro hmem
  obtain ⟨c, hc, hbyte⟩ := List.mem_flatMap.1 hmem
  exact h (eq_of_lineFeed_mem hbyte ▸ hc)

end Text

namespace CellList

/-- Characters are read back from their bytes. -/
lemma textOf_utf8 (text : List Char) : textOf (Text.utf8 text) = some text := by
  have hvalid : (Text.utf8 text).toByteArray.IsValidUTF8 := .intro text rfl
  rw [textOf, String.fromUTF8?, dif_pos hvalid]
  exact congrArg some (String.toList_ofList (l := text))

end CellList

end CellIndex
