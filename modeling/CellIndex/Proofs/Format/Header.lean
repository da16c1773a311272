import CellIndex.Format.Header
import CellIndex.Format.Layout
import CellIndex.Proofs.Bytes.Field
import CellIndex.Proofs.Sequence
import Mathlib.Tactic.Common

/-!
# Header blocks

Every parameter of a format fits the width that the header block has for it, so the block says the
format (`ofHeader_header_append`).  The other way round, a block is nothing but its fields
(`ofHeader_eq`): what is read depends on the parameters in them, and these on the canonical form of
the block.  So a block is read as a format exactly if its canonical form is the header of that
format, and the first thing that is wrong with any other block is named (**`ofHeader_exact`**).
-/

namespace CellIndex.Format

open BigEndian (encode decode decode_encode encode_decode)
open Sequence (ite_error_eq_ok)

variable {f : Format} {p : Params} {bytes : Bytes} {e : Error} {fault : FormatFault}

/-- A word in its four bytes. -/
lemma encode_four (n : Nat) : encode 4 n =
    [UInt8.ofNat (n / 256 / 256 / 256), UInt8.ofNat (n / 256 / 256), UInt8.ofNat (n / 256),
      UInt8.ofNat n] := by
  simp [encode]

lemma decode_encode_four (w : UInt32) : UInt32.ofNat (decode (encode 4 w.toNat)) = w := by
  rw [decode_encode w.toNat_lt, UInt32.ofNat_toNat]

/-- A word that fits a byte survives the way through it. -/
lemma toUInt32_toUInt8 {w : UInt32} (h : w.toNat < 256) : w.toUInt8.toUInt32 = w := by
  apply UInt32.toNat_inj.1
  rw [UInt8.toNat_toUInt32, UInt32.toNat_toUInt8]
  exact Nat.mod_eq_of_lt h

lemma flag_toNat (b : Bool) : decide ((if b then 1 else 0 : UInt8).toNat % 2 = 1) = b := by
  cases b <;> rfl

/-- A format is read back from its header block, whatever follows in the block. -/
lemma ofHeader_header_append (f : Format) (rest : Bytes) :
    ofHeader (f.header ++ rest) = .ok f := by
  have hupper : f.params.prefixBits.toNat < 256 := by
    have := f.valid.prefixBits_le
    omega
  have hlower : f.params.suffixBits.toNat < 256 := by
    have := f.dataBits_le
    unfold dataBits suffixBits at this
    omega
  have hrecord : f.params.recordBits.toNat < 256 := by
    have := f.valid.recordBits_le
    omega
  have hversion := decode_encode_four f.params.version
  have hoffset := decode_encode_four f.params.blockOffset
  rw [encode_four] at hversion hoffset
  have hlayout : ¬ headerLayout < headerLayout := by decide
  simp only [header, encode_four, List.cons_append, List.nil_append, ofHeader, if_neg hlayout,
    toUInt32_toUInt8 hupper, toUInt32_toUInt8 hlower, toUInt32_toUInt8 hrecord, hversion, hoffset,
    flag_toNat]
  rw [ofParams_params f]

/-! ## Blocks and their fields -/

lemma ofParams_eq_ok_iff : ofParams p = .ok f ↔ f.params = p := by
  constructor
  · intro h
    rw [ofParams] at h
    split at h
    · rw [← Except.ok.inj h]
    · cases h
  · rintro rfl
    exact ofParams_params f

lemma ofParams_eq_error_iff : ofParams p = .error fault ↔ p.fault? = some fault := by
  rw [ofParams]
  split
  · next hnone => simp [hnone]
  · next other hsome => simp [hsome]

/-- The parameters in a header block, each in the bytes at its place.  Of the flags only the lowest
is looked at. -/
def headerParams (bytes : Bytes) : Params where
  version := UInt32.ofNat (bytes.number 1 4)
  level := UInt8.ofNat (bytes.number 5 1)
  prefixBits := UInt32.ofNat (bytes.number 6 1)
  suffixBits := UInt32.ofNat (bytes.number 7 1)
  blockOffset := UInt32.ofNat (bytes.number 8 4)
  recordBits := UInt32.ofNat (bytes.number 12 1)
  allowedList := bytes.number 13 1 % 2 = 1
  valueBytes := UInt8.ofNat (bytes.number 14 1)

/-- A header block without what is not looked at: bytes behind the block, older versions of the
layout, and flags besides the lowest. -/
def canonicalHeader (bytes : Bytes) : Bytes :=
  ((bytes.take 15).set 0 headerLayout).modify 13 (· &&& 1)

lemma exists_fields (h : 15 ≤ bytes.length) :
    ∃ layout v₃ v₂ v₁ v₀ level prefixBits suffixBits o₃ o₂ o₁ o₀ recordBits flags valueBytes rest,
      bytes = layout :: v₃ :: v₂ :: v₁ :: v₀ :: level :: prefixBits :: suffixBits ::
        o₃ :: o₂ :: o₁ :: o₀ :: recordBits :: flags :: valueBytes :: rest := by
  rcases bytes with _ | ⟨layout, _ | ⟨v₃, _ | ⟨v₂, _ | ⟨v₁, _ | ⟨v₀, _ | ⟨level, _ | ⟨prefixBits,
    _ | ⟨suffixBits, _ | ⟨o₃, _ | ⟨o₂, _ | ⟨o₁, _ | ⟨o₀, _ | ⟨recordBits, _ | ⟨flags,
    _ | ⟨valueBytes, rest⟩⟩⟩⟩⟩⟩⟩⟩⟩⟩⟩⟩⟩⟩⟩
  all_goals try (simp at h; done)
  exact ⟨_, _, _, _, _, _, _, _, _, _, _, _, _, _, _, _, rfl⟩

lemma decode_singleton (byte : UInt8) : decode [byte] = byte.toNat := by
  show 0 * 256 + byte.toNat = byte.toNat
  omega

lemma encode_four_decode (a b c d : UInt8) :
    encode 4 (UInt32.ofNat (decode [a, b, c, d])).toNat = [a, b, c, d] := by
  have hlt : decode [a, b, c, d] < 256 ^ 4 := BigEndian.decode_lt [a, b, c, d]
  rw [UInt32.toNat_ofNat', Nat.mod_eq_of_lt (Nat.lt_of_lt_of_eq hlt (by decide))]
  exact encode_decode [a, b, c, d]

/-- A flag is the lowest bit of its byte. -/
lemma lowest_flag (flags : UInt8) :
    (if decide (flags.toNat % 2 = 1) then 1 else 0 : UInt8) = flags &&& 1 := by
  apply UInt8.toNat_inj.1
  rw [UInt8.toNat_and, show (1 : UInt8).toNat = 1 from rfl, Nat.and_one_is_mod]
  rcases Nat.mod_two_eq_zero_or_one flags.toNat with h | h
  · simp [h]
  · simp [h]

/-- A block is read by its fields. -/
lemma ofHeader_eq (h : 15 ≤ bytes.length) : ofHeader bytes =
    if 1 < bytes.number 0 1 then .error (.unsupportedVersion (bytes.number 0 1))
    else match ofParams (headerParams bytes) with
      | .ok f => .ok f
      | .error fault => .error (.corrupt (.headerBlock fault)) := by
  obtain ⟨layout, v₃, v₂, v₁, v₀, level, prefixBits, suffixBits, o₃, o₂, o₁, o₀, recordBits, flags,
    valueBytes, rest, rfl⟩ := exists_fields h
  have hlayout : headerLayout < layout ↔ 1 < layout.toNat := UInt8.lt_iff_toNat_lt
  simp only [headerParams, Bytes.number, Bytes.slice, List.drop_succ_cons, List.drop_zero,
    List.take_succ_cons, List.take_zero, decode_singleton, UInt8.ofNat_toNat,
    UInt32.ofNat_uInt8ToNat]
  exact if_congr hlayout rfl rfl

lemma ofHeader_of_short (h : bytes.length < 15) :
    ofHeader bytes = .error (.corrupt (.headerBlockSize bytes.length)) := by
  rw [ofHeader.eq_def]
  split
  · simp only [List.length_cons] at h
    omega
  · rfl

/-- The header block of parameters that have been read is the canonical form of the bytes. -/
lemma header_eq_of_params (h : 15 ≤ bytes.length) (hp : f.params = headerParams bytes) :
    f.header = canonicalHeader bytes := by
  obtain ⟨layout, v₃, v₂, v₁, v₀, level, prefixBits, suffixBits, o₃, o₂, o₁, o₀, recordBits, flags,
    valueBytes, rest, rfl⟩ := exists_fields h
  simp only [header, hp, headerParams, canonicalHeader, Bytes.number, Bytes.slice,
    List.drop_succ_cons, List.drop_zero, List.take_succ_cons, List.take_zero, decode_singleton,
    UInt8.ofNat_toNat, UInt32.ofNat_uInt8ToNat, encode_four_decode, lowest_flag]
  simp

/-- The canonical form has the same parameters. -/
lemma headerParams_canonicalHeader (h : 15 ≤ bytes.length) :
    headerParams (canonicalHeader bytes) = headerParams bytes := by
  obtain ⟨layout, v₃, v₂, v₁, v₀, level, prefixBits, suffixBits, o₃, o₂, o₁, o₀, recordBits, flags,
    valueBytes, rest, rfl⟩ := exists_fields h
  simp [headerParams, canonicalHeader, Bytes.number, Bytes.slice, decode_singleton]

/-- A block that is long enough is read by its layout and its parameters. -/
lemma ofHeader_eq_ok_iff : ofHeader bytes = .ok f ↔
    15 ≤ bytes.length ∧ bytes.number 0 1 ≤ 1 ∧ f.params = headerParams bytes := by
  rcases Nat.lt_or_ge bytes.length 15 with hshort | hlong
  · rw [ofHeader_of_short hshort]
    exact iff_of_false (by simp) fun h => absurd h.1 (Nat.not_le.2 hshort)
  · rw [ofHeader_eq hlong, ite_error_eq_ok, Nat.not_lt, ← ofParams_eq_ok_iff]
    refine (and_congr_right fun _ => ?_).trans (and_iff_right hlong).symm
    cases ofParams (headerParams bytes) <;> simp

/-- A block that is long enough and has a known layout can only be refused for its parameters. -/
lemma ofHeader_eq_error_iff : ofHeader bytes = .error e ↔
    bytes.length < 15 ∧ e = .corrupt (.headerBlockSize bytes.length) ∨
      15 ≤ bytes.length ∧ 1 < bytes.number 0 1 ∧ e = .unsupportedVersion (bytes.number 0 1) ∨
      15 ≤ bytes.length ∧ bytes.number 0 1 ≤ 1 ∧
        ∃ fault, (headerParams bytes).fault? = some fault ∧ e = .corrupt (.headerBlock fault) := by
  rcases Nat.lt_or_ge bytes.length 15 with hshort | hlong
  · simp [ofHeader_of_short hshort, hshort, Nat.not_le.2 hshort, eq_comm]
  · rw [ofHeader_eq hlong]
    split
    · next hnew => simp [hlong, hnew, Nat.not_lt.2 hlong, Nat.not_le.2 hnew, eq_comm]
    · next hold =>
      simp only [← ofParams_eq_error_iff, Nat.not_lt.2 hlong, hlong, hold, Nat.not_lt.1 hold,
        false_and, true_and, false_or]
      cases ofParams (headerParams bytes) <;> simp [eq_comm]

/-- A header that is the canonical form of the bytes says their parameters. -/
lemma params_eq_of_header (h : 15 ≤ bytes.length) (hf : f.header = canonicalHeader bytes) :
    f.params = headerParams bytes := by
  have hlength : f.header.length = 15 := by
    rw [hf, canonicalHeader, List.length_modify, List.length_set, List.length_take,
      Nat.min_eq_left h]
  have hread := ofHeader_header_append f []
  rw [List.append_nil, ofHeader_eq_ok_iff] at hread
  rw [hread.2.2, hf, headerParams_canonicalHeader h]

/-- **A header block is read exactly.**

* The header of a format is read as that format, whatever follows in the block.
* A block is read as a format exactly if it has fifteen bytes, its layout is not a newer one, and
  its first fifteen bytes are the header of the format but for the layout and the flags besides the
  lowest.  The format is then the one that the parameters in the block make, and its own parameters
  make it again.
* Every other block is refused: for its length if it is too short, else for its layout if that is a
  newer one, else for the first rule that the parameters in it break. -/
theorem ofHeader_exact (bytes : Bytes) :
    (∀ (f : Format) (rest : Bytes), ofHeader (f.header ++ rest) = .ok f) ∧
      (∀ f, ofHeader bytes = .ok f ↔
        15 ≤ bytes.length ∧ bytes.number 0 1 ≤ 1 ∧ f.header = canonicalHeader bytes) ∧
      (∀ f, ofHeader bytes = .ok f →
        ofParams (headerParams bytes) = .ok f ∧ ofParams f.params = .ok f) ∧
      ∀ e, ofHeader bytes = .error e ↔
        bytes.length < 15 ∧ e = .corrupt (.headerBlockSize bytes.length) ∨
        15 ≤ bytes.length ∧ 1 < bytes.number 0 1 ∧ e = .unsupportedVersion (bytes.number 0 1) ∨
        15 ≤ bytes.length ∧ bytes.number 0 1 ≤ 1 ∧
          ∃ fault, (headerParams bytes).fault? = some fault ∧
            e = .corrupt (.headerBlock fault) := by
  refine ⟨ofHeader_header_append, fun f => ?_, fun f h => ?_, fun e => ofHeader_eq_error_iff⟩
  · rw [ofHeader_eq_ok_iff]
    refine and_congr_right fun hlong => and_congr_right fun _ => ?_
    exact ⟨header_eq_of_params hlong, params_eq_of_header hlong⟩
  · obtain ⟨-, -, hparams⟩ := ofHeader_eq_ok_iff.1 h
    rw [← hparams]
    exact ⟨ofParams_params f, ofParams_params f⟩

/-- A block of an older layout with all flags set and a byte too many. -/
def looseBlock : Bytes := [0, 0, 0, 0, 7, 12, 11, 16, 0, 0, 0, 5, 40, 0xFF, 4, 9]

/-- The loose block is read, and the format that it tells has a header of the current layout with
one flag.  With one bit more in its records it is refused. -/
theorem ofHeader_exact_loose :
    (∃ f, ofHeader looseBlock = .ok f ∧
      f.header = [1, 0, 0, 0, 7, 12, 11, 16, 0, 0, 0, 5, 40, 1, 4] ∧
      ofHeader (f.header ++ [9]) = .ok f) ∧
      ofHeader (looseBlock.set 12 41) = .error (.corrupt (.headerBlock (.recordBits 41 16))) := by
  obtain ⟨hback, hread, -, -⟩ := ofHeader_exact looseBlock
  obtain ⟨-, -, -, hrefused⟩ := ofHeader_exact (looseBlock.set 12 41)
  constructor
  · refine ⟨⟨headerParams looseBlock, Params.fault?_eq_none_iff.1 (by decide +kernel)⟩, ?_, ?_, ?_⟩
    · exact (hread _).2 ⟨by decide, by decide, by decide +kernel⟩
    · decide +kernel
    · exact hback _ _
  · exact (hrefused _).2 (.inr (.inr ⟨by decide, by decide, _, by decide +kernel, rfl⟩))

end CellIndex.Format
