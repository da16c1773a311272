import CellIndex.CellList
import CellIndex.Proofs.Cell.Token
import Mathlib.Data.List.DropRight
import Mathlib.Data.List.Induction

/-!
# Spellings of tokens

An id has one token, but it may be spelled in other ways: with capital digits, and with zeros at the
end (`IsTokenSpelling`).  A spelling is read as the id whose token is left when the digits are put
into lower case and the zeros are taken away, for behind the digits of a number a zero is a factor
of sixteen (`encode_mul_pow`).  Other texts are refused, signs and blanks among them.
**`read_token_exact`** says all this of the reader of cells.
-/

namespace CellIndex

namespace Hexadecimal

variable {c : Char} {n : Nat} {text : List Char}

/-- The character is a digit of either case. -/
def IsDigit (c : Char) : Prop := c ∈ "0123456789abcdefABCDEF".toList

instance (c : Char) : Decidable (IsDigit c) := inferInstanceAs (Decidable (_ ∈ _))

/-- A digit stands for the number whose lower case digit it is. -/
lemma IsDigit.exists_digit (h : IsDigit c) :
    ∃ d < 16, digitValue? c = some d ∧ c.toLower = digit d := by
  have hdigits : "0123456789abcdefABCDEF".toList.all (fun c =>
      (digitValue? c).any fun d => decide (d < 16 ∧ c.toLower = digit d)) = true := by decide
  obtain ⟨d, hvalue, hd⟩ := (Option.any_eq_true _ _).1 (List.all_eq_true.1 hdigits c h)
  obtain ⟨hlt, hdigit⟩ := of_decide_eq_true hd
  exact ⟨d, hlt, hvalue, hdigit⟩

/-- Only digits stand for numbers. -/
lemma isDigit_of_digitValue? {d : Nat} (h : digitValue? c = some d) : IsDigit c := by
  have hascii : ∀ n < 128, (digitValue? (Char.ofNat n)).isSome = true →
      IsDigit (Char.ofNat n) := by decide
  have hlt : c.toNat < 128 := by
    by_contra hge
    have hnone : digitValue? c = none := by
      have hbeyond : ∀ last : Char, last.toNat < 128 → ¬ c ≤ last := fun last hlast hle =>
        hge (Nat.lt_of_le_of_lt hle hlast)
      simp [digitValue?, hbeyond]
    rw [hnone] at h
    exact Option.some_ne_none d h.symm
  have hmem := hascii c.toNat hlt (by rw [Char.ofNat_toNat, h]; rfl)
  rwa [Char.ofNat_toNat] at hmem

lemma decode?_append_singleton (text : List Char) (c : Char) :
    decode? (text ++ [c]) = (decode? text).bind fun n => (digitValue? c).map (n * 16 + ·) := by
  rw [decode?, List.foldlM_append, ← decode?]
  cases decode? text with
  | none => rfl
  | some n => simp

/-- Digits spell a number, and their lower case forms are its notation. -/
lemma exists_decode?_of_isDigit (h : ∀ c ∈ text, IsDigit c) :
    ∃ n < 16 ^ text.length, decode? text = some n ∧
      encode text.length n = text.map Char.toLower := by
  induction text using List.reverseRecOn with
  | nil => exact ⟨0, by decide, rfl, rfl⟩
  | append_singleton text c ih =>
    obtain ⟨n, hlt, hread, hwrite⟩ := ih fun c hc => h c (List.mem_append_left _ hc)
    obtain ⟨d, hd, hvalue, hlower⟩ :=
      (h c (List.mem_append_right _ (List.mem_singleton_self c))).exists_digit
    refine ⟨n * 16 + d, ?_, ?_, ?_⟩
    · rw [List.length_append, List.length_singleton, natPow_succ]
      omega
    · rw [decode?_append_singleton, hread, hvalue]
      rfl
    · rw [List.length_append, List.length_singleton, encode, List.map_append, List.map_singleton,
        hlower, ← hwrite, show (n * 16 + d) / 16 = n by omega, show (n * 16 + d) % 16 = d by omega]

/-- A text that spells a number has digits only. -/
lemma isDigit_of_decode? (h : decode? text = some n) : ∀ c ∈ text, IsDigit c := by
  induction text using List.reverseRecOn generalizing n with
  | nil => exact fun c hc => absurd hc List.not_mem_nil
  | append_singleton text c ih =>
    rw [decode?_append_singleton, Option.bind_eq_some_iff] at h
    obtain ⟨m, hm, hlast⟩ := h
    obtain ⟨d, hd, -⟩ := Option.map_eq_some_iff.1 hlast
    intro b hb
    rcases List.mem_append.1 hb with hb | hb
    · exact ih hm b hb
    · rw [List.mem_singleton.1 hb]
      exact isDigit_of_digitValue? hd

/-- A factor of sixteen is a zero at the end. -/
lemma encode_mul_pow (width count n : Nat) :
    encode (width + count) (n * 16 ^ count) = encode width n ++ List.replicate count '0' := by
  induction count with
  | zero => simp
  | succ count ih =>
    rw [← Nat.add_assoc, natPow_succ, ← Nat.mul_assoc, encode,
      Nat.mul_div_cancel _ (by decide), Nat.mul_mod_left, ih, List.replicate_succ',
      List.append_assoc]
    rfl

end Hexadecimal

namespace CellId

open Hexadecimal

variable {id : CellId} {text : List Char}

/-- The texts that name an id: the letter for zero in either case, or one to sixteen digits. -/
def IsTokenSpelling (text : List Char) : Prop :=
  text = ['X'] ∨ text = ['x'] ∨
    (1 ≤ text.length ∧ text.length ≤ 16 ∧ ∀ c ∈ text, IsDigit c)

lemma token_injective : Function.Injective token := by
  intro a b h
  have hread := ofToken?_token a
  rw [h, ofToken?_token] at hread
  exact (Option.some.inj hread).symm

/-- Only spellings of tokens are read. -/
lemma isTokenSpelling_of_ofToken? (h : ofToken? text = some id) : IsTokenSpelling text := by
  rw [ofToken?] at h
  split at h
  · next hletter => exact hletter.elim .inl (.inr ∘ .inl)
  · split at h
    · exact absurd h (Option.some_ne_none _).symm
    · next hlength =>
      obtain ⟨n, hn, -⟩ := Option.map_eq_some_iff.1 h
      rw [not_or, List.isEmpty_iff, Nat.not_lt] at hlength
      exact .inr (.inr ⟨List.length_pos_iff.2 hlength.1, hlength.2, isDigit_of_decode? hn⟩)

/-- Digits are read as the id with their lower case forms and zeros behind them as its digits. -/
lemma exists_ofToken?_of_isDigit (hne : 1 ≤ text.length) (hle : text.length ≤ 16)
    (hdigits : ∀ c ∈ text, IsDigit c) : ∃ id, ofToken? text = some id ∧
      encode 16 id.toNat = text.map Char.toLower ++ List.replicate (16 - text.length) '0' := by
  obtain ⟨n, hlt, hread, hwrite⟩ := exists_decode?_of_isDigit hdigits
  have hletter : ¬ (text = ['X'] ∨ text = ['x']) := by
    rintro (rfl | rfl)
    · exact absurd (hdigits 'X' (List.mem_singleton_self _)) (by decide)
    · exact absurd (hdigits 'x' (List.mem_singleton_self _)) (by decide)
  have hword : n * 16 ^ (16 - text.length) < 2 ^ 64 := by
    calc n * 16 ^ (16 - text.length)
        < 16 ^ text.length * 16 ^ (16 - text.length) :=
          Nat.mul_lt_mul_of_pos_right hlt (Nat.pow_pos (by decide))
      _ = 16 ^ 16 := by rw [← Nat.pow_add, Nat.add_sub_cancel' hle]
  refine ⟨ofNat (n * 16 ^ (16 - text.length)), ?_, ?_⟩
  · rw [ofToken?, if_neg hletter, if_neg, hread]
    · rfl
    · rw [not_or, List.isEmpty_iff, Nat.not_lt]
      exact ⟨List.length_pos_iff.1 hne, hle⟩
  · have hsplit := encode_mul_pow text.length (16 - text.length) n
    rw [Nat.add_sub_cancel' hle, hwrite] at hsplit
    rw [toNat_ofNat, Nat.mod_eq_of_lt hword, hsplit]

lemma exists_ofToken?_iff : (∃ id, ofToken? text = some id) ↔ IsTokenSpelling text := by
  constructor
  · rintro ⟨id, h⟩
    exact isTokenSpelling_of_ofToken? h
  · rintro (rfl | rfl | ⟨hne, hle, hdigits⟩)
    · exact ⟨ofNat 0, rfl⟩
    · exact ⟨ofNat 0, rfl⟩
    · obtain ⟨id, h, -⟩ := exists_ofToken?_of_isDigit hne hle hdigits
      exact ⟨id, h⟩

/-- What is read is the id whose token is left of the spelling without capitals and last zeros. -/
lemma token_of_ofToken? (h : ofToken? text = some id) (hid : id.toNat ≠ 0) :
    id.token = (text.map Char.toLower).rdropWhile (· = '0') := by
  rcases isTokenSpelling_of_ofToken? h with rfl | rfl | ⟨hne, hle, hdigits⟩
  · exact absurd (congrArg toNat (Option.some.inj h)).symm hid
  · exact absurd (congrArg toNat (Option.some.inj h)).symm hid
  · obtain ⟨id', hread, hencode⟩ := exists_ofToken?_of_isDigit hne hle hdigits
    obtain rfl : id' = id := Option.some.inj (hread.symm.trans h)
    have hzeros : ∀ c ∈ List.replicate (16 - text.length) '0', decide (c = '0') = true :=
      fun c hc => decide_eq_true (List.eq_of_mem_replicate hc)
    rw [token, if_neg hid, hencode, List.reverse_append, List.reverse_replicate,
      List.dropWhile_append_of_pos hzeros, List.rdropWhile]

/-- **A token is read back, and any other spelling as the token that it comes to.**

* Every id is read back from its token, so two ids have two tokens.
* A text is read exactly if it is a spelling of a token: the letter `X` of either case, or one to
  sixteen digits of either case.
* The token of the id that is read is the text in lower case without the zeros at its end, or `X`
  for the id zero.
* Any other text is no valid input. -/
theorem read_token_exact :
    (∀ id : CellId, CellFormat.token.read id.token = .ok id) ∧ Function.Injective token ∧
    ∀ text : List Char,
      ((∃ id, CellFormat.token.read text = .ok id) ↔ IsTokenSpelling text) ∧
      (∀ id, CellFormat.token.read text = .ok id → id.token =
        if id.toNat = 0 then ['X'] else (text.map Char.toLower).rdropWhile (· = '0')) ∧
      (¬ IsTokenSpelling text → (CellFormat.token.read text).mapError Error.invalidInput =
        .error (.invalidInput (.token text))) := by
  have hread : ∀ text, CellFormat.token.read text =
      (ofToken? text).elim (.error (.token text)) .ok := fun _ => rfl
  have hok : ∀ text id, CellFormat.token.read text = .ok id ↔ ofToken? text = some id := by
    intro text id
    rw [hread]
    cases ofToken? text <;> simp
  refine ⟨fun id => (hok _ id).2 (ofToken?_token id), token_injective, fun text => ⟨?_, ?_, ?_⟩⟩
  · simp only [hok, exists_ofToken?_iff]
  · intro id h
    split
    · next hid => rw [token, if_pos hid]
    · next hid => exact token_of_ofToken? ((hok text id).1 h) hid
  · intro h
    rw [← exists_ofToken?_iff, not_exists, ← Option.eq_none_iff_forall_ne_some] at h
    rw [hread, h]
    rfl

/-- A zero in front is kept, a capital digit and a zero at the end are not, and a sign is
refused. -/
theorem read_token_exact_spellings :
    CellFormat.token.read "01A0".toList = .ok (ofNat 0x01A0000000000000) ∧
      (ofNat 0x01A0000000000000).token = "01a".toList ∧
      CellFormat.token.read "00".toList = .ok (ofNat 0) ∧ (ofNat 0).token = ['X'] ∧
      ¬ IsTokenSpelling "+1".toList ∧
      (CellFormat.token.read "+1".toList).mapError Error.invalidInput =
        .error (.invalidInput (.token "+1".toList)) := by
  obtain ⟨-, -, hspelling⟩ := read_token_exact
  have hcapital : CellFormat.token.read "01A0".toList = .ok (ofNat 0x01A0000000000000) := by rfl
  have hzeros : CellFormat.token.read "00".toList = .ok (ofNat 0) := by rfl
  have hsign : ¬ IsTokenSpelling "+1".toList := by
    rintro (hX | hx | ⟨-, -, hdigits⟩)
    · exact absurd hX (by decide)
    · exact absurd hx (by decide)
    · exact absurd (hdigits '+' List.mem_cons_self) (by decide)
  exact ⟨hcapital, ((hspelling _).2.1 _ hcapital).trans (by decide), hzeros,
    ((hspelling _).2.1 _ hzeros).trans (by decide), hsign, (hspelling _).2.2 hsign⟩

end CellId

end CellIndex
