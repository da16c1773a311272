import CellIndex.Proofs.Guarded.Basic
import CellIndex.Proofs.Sequence
import Mathlib.Data.List.Induction

/-!
# Numbers in a growing buffer

A machine has two views of a number of a few bytes.  It appends the last bytes of a whole word
(`ofWord`) to a buffer, which stays as it is if the number does not fit (`write`).  And it reads a
number by pushing one byte after the other into a word (`toWord`), after it has found in words where
the bytes end (`readWord`).

Both views are those of base 256 (`drop_ofWord`, `toNat_toWord`): no width of at most eight bytes
loses a bit.  **`append_read_exact`** says when a number can be appended and read, and that the one
undoes the other, whatever stands before and behind.
-/

namespace CellIndex

namespace BigEndian

/-- The last digits of a number. -/
lemma drop_encode (count width n : Nat) :
    (encode (count + width) n).drop count = encode width n := by
  induction width generalizing n with
  | zero => exact List.drop_eq_nil_of_le (Nat.le_of_eq (length_encode count n))
  | succ width ih =>
    rw [← Nat.add_assoc, encode, List.drop_append_of_le_length (by rw [length_encode]; omega), ih,
      encode]

end BigEndian

namespace Bytes

open BigEndian

variable {buffer bytes longer : Bytes} {offset width n : Nat} {value : UInt64} {e : Error}

/-! ## Words -/

/-- The eight bytes of a word, the most significant first. -/
def ofWord (w : UInt64) : Bytes :=
  [56, 48, 40, 32, 24, 16, 8, 0].map fun (place : UInt64) => (w >>> place).toUInt8

/-- The word into which bytes are pushed from below. -/
def toWord (bytes : Bytes) : UInt64 :=
  bytes.foldl (fun w byte => w <<< 8 ||| byte.toUInt64) 0

lemma ofWord_eq (w : UInt64) : ofWord w = encode 8 w.toNat := by
  have hbyte : ∀ (place : UInt64) (n : Nat), w.toNat / 2 ^ (place.toNat % 64) % 256 = n % 256 →
      (w >>> place).toUInt8 = UInt8.ofNat n := by
    intro place n h
    apply UInt8.toNat_inj.1
    rw [UInt64.toNat_toUInt8, UInt64.toNat_shiftRight, UInt8.toNat_ofNat',
      Nat.shiftRight_eq_div_pow]
    exact h
  simp only [ofWord, encode, List.map_cons, List.map_nil, List.nil_append, List.cons_append,
    Nat.div_div_eq_div_mul, List.cons.injEq, and_true]
  refine ⟨hbyte _ _ rfl, hbyte _ _ rfl, hbyte _ _ rfl, hbyte _ _ rfl, hbyte _ _ rfl, hbyte _ _ rfl,
    hbyte _ _ rfl, hbyte _ _ ?_⟩
  rw [show (0 : UInt64).toNat % 64 = 0 from rfl, Nat.pow_zero, Nat.div_one]

/-- The last bytes of a word spell a number that is small enough for them. -/
lemma drop_ofWord (h : width ≤ 8) (w : UInt64) :
    (ofWord w).drop (8 - width) = encode width w.toNat := by
  have hsplit := drop_encode (8 - width) width w.toNat
  rwa [Nat.sub_add_cancel h, ← ofWord_eq] at hsplit

/-- Up to eight bytes are pushed into a word without a loss. -/
lemma toNat_toWord (h : bytes.length ≤ 8) : (toWord bytes).toNat = decode bytes := by
  induction bytes using List.reverseRecOn with
  | nil => rfl
  | append_singleton bytes byte ih =>
    rw [List.length_append, List.length_singleton] at h
    have hlt : decode bytes < 256 ^ 7 :=
      Nat.lt_of_lt_of_le (decode_lt bytes) (Nat.pow_le_pow_right (by decide) (by omega))
    have hbyte : byte.toNat < 2 ^ 8 := byte.toNat_lt
    rw [toWord, List.foldl_append, ← toWord, decode_append_singleton, List.foldl_cons,
      List.foldl_nil, UInt64.toNat_or, UInt64.toNat_shiftLeft, UInt8.toNat_toUInt64, ih (by omega),
      show (8 : UInt64).toNat % 64 = 8 from rfl, Nat.shiftLeft_eq, Nat.mod_eq_of_lt (by omega),
      ← Nat.shiftLeft_eq, ← Nat.shiftLeft_add_eq_or_of_lt hbyte, Nat.shiftLeft_eq]

/-! ## Appending -/

/-- Appends the last `width` bytes of a word to the buffer that it works on. -/
def write (width : Nat) (value : UInt64) : ExceptT Error (StateM Bytes) Unit := do
  if 8 < width then throw (.invalidArgument (.widthTooLarge width))
  if limit width < value.toNat then throw (.invalidArgument (.doesNotFit value.toNat width))
  modify (· ++ (ofWord value).drop (8 - width))

lemma append_eq_ok_iff : buffer.append width n = .ok longer ↔
    (width ≤ 8 ∧ n < 256 ^ width) ∧ longer = buffer ++ encode width n := by
  rw [append, Sequence.ite_error_eq_ok, Sequence.ite_error_eq_ok, Nat.not_lt, Nat.not_lt,
    ← and_assoc, Except.ok.injEq]
  constructor
  · rintro ⟨⟨hwidth, hn⟩, rfl⟩
    exact ⟨⟨hwidth, (le_limit_iff hwidth).1 hn⟩, rfl⟩
  · rintro ⟨⟨hwidth, hn⟩, rfl⟩
    exact ⟨⟨hwidth, (le_limit_iff hwidth).2 hn⟩, rfl⟩

/-- A number that is appended stands in the buffer, and one that is not leaves it as it is. -/
lemma run_write (buffer : Bytes) (width : Nat) (value : UInt64) :
    (write width value).run.run buffer = match buffer.append width value.toNat with
      | .ok longer => (.ok (), longer)
      | .error e => (.error e, buffer) := by
  rw [write, append]
  by_cases hwidth : 8 < width
  · rw [if_pos hwidth, if_pos hwidth]
    rfl
  · rw [if_neg hwidth, if_neg hwidth]
    by_cases hvalue : limit width < value.toNat
    · rw [if_pos hvalue, if_pos hvalue]
      rfl
    · rw [if_neg hvalue, if_neg hvalue, drop_ofWord (Nat.not_lt.1 hwidth)]
      rfl

/-! ## Reading -/

/-- Reads a word from bytes whose first place and number are words.  The place behind them has to
be one too. -/
def readWord (bytes : Bytes) (offset width : UInt64) : Except Error UInt64 :=
  if 8 < width then .error (.invalidArgument (.widthTooLarge width.toNat))
  else match (Guarded.checked 64 (offset.toNat + width.toNat)).filter (· ≤ bytes.length) with
    | none =>
      .error (.invalidArgument (.readPastEnd width.toNat offset.toNat bytes.length))
    | some stop => .ok (toWord (bytes.slice offset.toNat (stop - offset.toNat)))

lemma read_eq_ok_iff : bytes.read offset width = .ok n ↔
    (width ≤ 8 ∧ offset + width ≤ bytes.length) ∧ bytes.number offset width = n := by
  rw [read, Sequence.ite_error_eq_ok, Sequence.ite_error_eq_ok, Nat.not_lt, Nat.not_lt,
    ← and_assoc, Except.ok.injEq]

/-- No place in the bytes is missed because it is no word. -/
lemma readWord_eq (h : bytes.length < 2 ^ 64) (offset width : UInt64) :
    (readWord bytes offset width).map UInt64.toNat = bytes.read offset.toNat width.toNat := by
  have hlt : 8 < width ↔ 8 < width.toNat := UInt64.lt_iff_toNat_lt
  rw [readWord, read]
  by_cases hwidth : 8 < width
  · rw [if_pos hwidth, if_pos (hlt.1 hwidth)]
    rfl
  · rw [if_neg hwidth, if_neg (hwidth ∘ hlt.2)]
    rw [hlt, Nat.not_lt] at hwidth
    by_cases hend : bytes.length < offset.toNat + width.toNat
    · have hnone : (Guarded.checked 64 (offset.toNat + width.toNat)).filter
          (· ≤ bytes.length) = none := by
        rw [Guarded.checked]
        split <;> simp [hend]
      rw [if_pos hend, hnone]
      rfl
    · have hsome : (Guarded.checked 64 (offset.toNat + width.toNat)).filter
          (· ≤ bytes.length) = some (offset.toNat + width.toNat) := by
        rw [Guarded.checked, if_pos (by omega)]
        simp [Nat.not_lt.1 hend]
      have hslice : (bytes.slice offset.toNat width.toNat).length ≤ 8 := by
        rwa [length_slice (Nat.not_lt.1 hend)]
      rw [if_neg hend, hsome, number, ← toNat_toWord hslice]
      simp only [Nat.add_sub_cancel_left]
      rfl

/-- **Appending and reading undo each other.**

* A number is appended exactly if its width is at most eight bytes and holds it.  It takes just
  these bytes, and whatever is appended afterwards, it is read back from the old end of the buffer.
  A buffer that is worked on in place is the longer one, or with an error the old one.
* A number is read exactly if its width is at most eight bytes, all of which are there.  It fits its
  width, and appending it with that width repeats the bytes read.  Words are enough to read it. -/
theorem append_read_exact :
    (∀ (buffer : Bytes) (width : Nat) (value : UInt64),
      ((∃ longer, buffer.append width value.toNat = .ok longer) ↔
        width ≤ 8 ∧ value.toNat < 256 ^ width) ∧
      (∀ longer, buffer.append width value.toNat = .ok longer →
        (write width value).run.run buffer = (.ok (), longer) ∧
        ∃ field : Bytes, field.length = width ∧ longer = buffer ++ field ∧
          ∀ rest, (longer ++ rest).read buffer.length width = .ok value.toNat) ∧
      ∀ e, buffer.append width value.toNat = .error e →
        (write width value).run.run buffer = (.error e, buffer)) ∧
    (∀ (bytes : Bytes) (offset width : Nat),
      ((∃ n, bytes.read offset width = .ok n) ↔ width ≤ 8 ∧ offset + width ≤ bytes.length) ∧
      ∀ n, bytes.read offset width = .ok n → n < 256 ^ width ∧
        ∀ buffer : Bytes, buffer.append width n = .ok (buffer ++ bytes.slice offset width)) ∧
    ∀ (bytes : Bytes) (offset width : UInt64), bytes.length < 2 ^ 64 →
      (readWord bytes offset width).map UInt64.toNat =
        bytes.read offset.toNat width.toNat := by
  refine ⟨fun buffer width value => ⟨?_, fun longer hlonger => ?_, fun e he => ?_⟩,
    fun bytes offset width => ⟨?_, fun n hn => ?_⟩,
    fun bytes offset width hlength => readWord_eq hlength offset width⟩
  · simp only [append_eq_ok_iff, exists_and_left, exists_eq, and_true]
  · refine ⟨by rw [run_write, hlonger], ?_⟩
    obtain ⟨⟨hwidth, hvalue⟩, rfl⟩ := append_eq_ok_iff.1 hlonger
    refine ⟨encode width value.toNat, length_encode _ _, rfl, fun rest => ?_⟩
    refine read_eq_ok_iff.2 ⟨⟨hwidth, ?_⟩, ?_⟩
    · simp only [List.length_append, length_encode]
      omega
    · rw [List.append_assoc, number_skip (Nat.le_refl _), Nat.sub_self, number_encode hvalue]
  · rw [run_write, he]
  · simp only [read_eq_ok_iff, exists_and_left, exists_eq', and_true]
  · obtain ⟨⟨hwidth, hend⟩, rfl⟩ := read_eq_ok_iff.1 hn
    refine ⟨number_lt bytes offset width, fun buffer => ?_⟩
    exact append_eq_ok_iff.2 ⟨⟨hwidth, number_lt bytes offset width⟩, by rw [encode_number hend]⟩

/-- Three bytes are appended and read back in front of another byte, two bytes do not hold the next
number, and the last word is no place of two bytes. -/
theorem append_read_exact_three_bytes :
    append [7] 3 (0x010203 : UInt64).toNat = .ok [7, 1, 2, 3] ∧
      (write 3 0x010203).run.run [7] = (.ok (), [7, 1, 2, 3]) ∧
      read [7, 1, 2, 3, 9] 1 3 = .ok 0x010203 ∧
      append [7] 2 (0x010000 : UInt64).toNat = .error (.invalidArgument (.doesNotFit 0x010000 2)) ∧
      (write 2 0x010000).run.run [7] =
        (.error (.invalidArgument (.doesNotFit 0x010000 2)), [7]) ∧
      read [7, 1, 2, 3, 9] 2 2 = .ok 0x0203 ∧ 0x0203 < 256 ^ 2 ∧ append [] 2 0x0203 = .ok [2, 3] ∧
      (readWord [7] 0xFFFFFFFFFFFFFFFF 2).map UInt64.toNat = read [7] 0xFFFFFFFFFFFFFFFF 2 := by
  obtain ⟨happend, hread, hwords⟩ := append_read_exact
  have hthree : append [7] 3 (0x010203 : UInt64).toNat = .ok [7, 1, 2, 3] := by rfl
  have htwo : append [7] 2 (0x010000 : UInt64).toNat =
      .error (.invalidArgument (.doesNotFit 0x010000 2)) := by rfl
  have hpart : read [7, 1, 2, 3, 9] 2 2 = .ok 0x0203 := by rfl
  obtain ⟨hwrite, field, -, -, hback⟩ := (happend [7] 3 0x010203).2.1 _ hthree
  obtain ⟨hlt, hagain⟩ := (hread [7, 1, 2, 3, 9] 2 2).2 _ hpart
  exact ⟨hthree, hwrite, hback [9], htwo, (happend [7] 2 0x010000).2.2 _ htwo, hpart, hlt,
    hagain [], hwords [7] 0xFFFFFFFFFFFFFFFF 2 (by decide)⟩

end Bytes

end CellIndex
