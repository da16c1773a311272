import CellIndex.Proofs.SuffixTable.Shared

/-!
# Values that are stored once

Shared data holds no value, one value for all ranges, or one for each, and tells these apart by its
length and the number in front of the values.  Whichever it is, every range finds the value that was
given for it, and what is cut off is noticed unless so little is left that there seem to be no
values: **`encode_transparent`**.
-/

namespace CellIndex.SharedData

variable {f : Format} {tablePrefix : UInt32} {values : List UInt32} {bytes : Bytes} {n : Nat}

/-- All values are the same. -/
def AllEqual (values : List UInt32) : Prop := ∀ v ∈ values, ∀ w ∈ values, v = w

instance (values : List UInt32) : Decidable (AllEqual values) :=
  decidable_of_iff (values.all fun v => values.all fun w => v = w) (by simp [AllEqual])

/-- The format has values, and one of these is too large for it. -/
def SomeTooLarge (f : Format) (values : List UInt32) : Prop :=
  f.valueBytes ≠ 0 ∧ ∃ value ∈ values, f.maxValue < value.toNat

instance (f : Format) (values : List UInt32) : Decidable (SomeTooLarge f values) :=
  decidable_of_iff (f.valueBytes ≠ 0 ∧ values.any (f.maxValue < ·.toNat)) (by simp [SomeTooLarge])

/-- Bytes that were written for the values of a table, and the shared data that is read from them,
agree: on the prefix, on the value of every range, on how many values are stored, and on what is
left of them when bytes are missing. -/
structure Agrees (f : Format) (tablePrefix : UInt32) (values : List UInt32) (bytes : Bytes)
    (shared : SharedData) : Prop where
  decode_eq : decode f bytes = .ok shared
  tablePrefix_eq : shared.tablePrefix = tablePrefix
  /-- Every range has its own value. -/
  value_eq : f.valueBytes ≠ 0 → ∀ index (h : index < values.length),
    shared.value? index = some values[index]
  /-- Without values there is only the prefix. -/
  without : f.valueBytes = 0 ∨ values = [] →
    bytes.length = 4 ∧ shared.values.size = 0 ∧ ∀ index, shared.value? index = none
  /-- Equal values are stored once. -/
  once : f.valueBytes ≠ 0 → values ≠ [] → AllEqual values →
    bytes.length = 8 + f.valueBytes ∧ shared.values.size = 1
  /-- Other values are stored one by one. -/
  each : f.valueBytes ≠ 0 → ¬ AllEqual values →
    bytes.length = 8 + f.valueBytes * values.length ∧ shared.values.size = values.length
  /-- Of shared data with values, no proper part is read with values. -/
  part : f.valueBytes ≠ 0 → values ≠ [] → ∀ n < bytes.length,
    (4 ≤ n ∧ n ≤ 8 → decode f (bytes.take n) = .ok ⟨tablePrefix, #[]⟩) ∧
      (n < 4 ∨ 8 < n → ∃ fault, decode f (bytes.take n) = .error (.corrupt fault))

/-! ## How many values are stored -/

lemma allEqual_cons_iff {first : UInt32} {rest : List UInt32} :
    AllEqual (first :: rest) ↔ rest.all (· = first) = true := by
  rw [List.all_eq_true]
  constructor
  · intro h value hv
    exact decide_eq_true (h value (List.mem_cons_of_mem _ hv) first List.mem_cons_self)
  · intro h
    have hfirst : ∀ value ∈ first :: rest, value = first := by
      intro value hv
      rcases List.mem_cons.1 hv with rfl | hv
      · rfl
      · exact of_decide_eq_true (h value hv)
    intro v hv w hw
    rw [hfirst v hv, hfirst w hw]

lemma length_storedValues_of_allEqual (hne : values ≠ []) (h : AllEqual values) :
    (storedValues values).length = 1 := by
  cases values with
  | nil => exact absurd rfl hne
  | cons first rest =>
    rw [storedValues, if_pos (allEqual_cons_iff.1 h)]
    rfl

lemma storedValues_of_not_allEqual (h : ¬ AllEqual values) : storedValues values = values := by
  cases values with
  | nil => rfl
  | cons first rest => rw [storedValues, if_neg fun hall => h (allEqual_cons_iff.2 hall)]

/-! ## Values that do not fit -/

/-- Shared data is refused because of a value that is too large. -/
lemma encode_eq_error_iff {fault : ArgumentFault} :
    encode f tablePrefix values = .error (.invalidArgument fault) ↔ f.valueBytes ≠ 0 ∧
      ∃ value, values.find? (f.maxValue < ·.toNat) = some value ∧
        .sharedValue value.toNat f.valueBytes f.maxValue = fault := by
  rw [encode]
  split
  · next hnone =>
    rcases hnone with hbytes | rfl
    · simp [hbytes]
    · simp
  · next hsome =>
    rw [not_or] at hsome
    cases hfind : values.find? (f.maxValue < ·.toNat) with
    | none => simp
    | some value => simp [hsome.1]

/-! ## Parts of shared data -/

lemma decode_take_of_le (hlow : 4 ≤ n) (hhigh : n ≤ 8) (hn : n < bytes.length) :
    decode f (bytes.take n) = .ok ⟨UInt32.ofNat (bytes.number 0 4), #[]⟩ := by
  have hlen : (bytes.take n).length = n := List.length_take_of_le (Nat.le_of_lt hn)
  rw [decode, hlen, if_neg (by omega), if_pos (Or.inr hhigh), Bytes.number_take hlow]

/-- Where the number of the values asks for more bytes than are left, it is noticed. -/
lemma decode_take_of_lt (hbytes : f.valueBytes ≠ 0) (hlow : 8 < n) (hn : n < bytes.length)
    (hneed : n < 8 + f.valueBytes * bytes.number 4 4) :
    ∃ fault, decode f (bytes.take n) = .error (.corrupt fault) := by
  have hlen : (bytes.take n).length = n := List.length_take_of_le (Nat.le_of_lt hn)
  have hpos : 0 < bytes.number 4 4 := by
    refine Nat.pos_of_ne_zero fun hzero => ?_
    rw [hzero, Nat.mul_zero] at hneed
    omega
  rw [decode, hlen, if_neg (by omega), if_neg (by omega), Bytes.number_take (by omega)]
  simp only [hpos, hneed, and_self, if_true]
  exact ⟨_, rfl⟩

lemma decode_take_of_short (h : n < 4) :
    ∃ fault, decode f (bytes.take n) = .error (.corrupt fault) := by
  have hlen : (bytes.take n).length < 4 := by
    rw [List.length_take]
    omega
  rw [decode, if_pos hlen]
  exact ⟨_, rfl⟩

/-- Shared data with values begins with the prefix and the number of the values, which ask for all
the bytes that follow. -/
lemma exists_fields_of_encode (h : encode f tablePrefix values = .ok bytes)
    (hbytes : f.valueBytes ≠ 0) (hne : values ≠ []) (hcount : values.length < 2 ^ 32) :
    bytes.number 0 4 = tablePrefix.toNat ∧ bytes.number 4 4 = (storedValues values).length ∧
      bytes.length = 8 + f.valueBytes * (storedValues values).length := by
  rcases encode_eq_ok h with ⟨hkept, -⟩ | ⟨-, -, -, rfl⟩
  · have hpos := length_storedValues_pos hne
    rw [keptValues, if_neg hbytes] at hkept
    rw [hkept] at hpos
    exact absurd hpos (Nat.lt_irrefl 0)
  · have hstored : (storedValues values).length < 256 ^ 4 :=
      Nat.lt_of_le_of_lt (length_storedValues_le values) hcount
    refine ⟨Bytes.number_encode_uint32 _, ?_, ?_⟩
    · rw [Bytes.number_skip (Nat.le_of_eq (BigEndian.length_encode _ _)), BigEndian.length_encode,
        valueSection, Bytes.number_encode hstored]
    · rw [List.length_append, length_valueSection, BigEndian.length_encode]
      omega

lemma keptValues_eq_nil (h : f.valueBytes = 0 ∨ values = []) : keptValues f values = [] := by
  rw [keptValues]
  rcases h with hbytes | rfl
  · exact if_pos hbytes
  · exact ite_self _

/-- Shared data without values is the prefix. -/
lemma length_of_encode_of_none (h : encode f tablePrefix values = .ok bytes)
    (hnone : f.valueBytes = 0 ∨ values = []) : bytes.length = 4 := by
  rcases encode_eq_ok h with ⟨-, rfl⟩ | ⟨hbytes, hne, -, -⟩
  · exact BigEndian.length_encode _ _
  · exact absurd hnone (not_or.2 ⟨hbytes, hne⟩)

/-- What is left of shared data with values has lost all of them, or is refused. -/
lemma decode_take_of_encode (h : encode f tablePrefix values = .ok bytes)
    (hbytes : f.valueBytes ≠ 0) (hne : values ≠ []) (hcount : values.length < 2 ^ 32)
    (hn : n < bytes.length) :
    (4 ≤ n ∧ n ≤ 8 → decode f (bytes.take n) = .ok ⟨tablePrefix, #[]⟩) ∧
      (n < 4 ∨ 8 < n → ∃ fault, decode f (bytes.take n) = .error (.corrupt fault)) := by
  obtain ⟨hfront, hnumber, hlength⟩ := exists_fields_of_encode h hbytes hne hcount
  constructor
  · rintro ⟨hlow, hhigh⟩
    rw [decode_take_of_le hlow hhigh hn, hfront, UInt32.ofNat_toNat]
  · rintro (hshort | hlow)
    · exact decode_take_of_short hshort
    · exact decode_take_of_lt hbytes hlow hn (by rwa [hnumber, ← hlength])

/-! ## What is written and what is read -/

/-- Shared data of values that fit is written, and read as what it was written for. -/
lemma exists_agrees (hfit : f.valueBytes ≠ 0 → ∀ value ∈ values, value.toNat ≤ f.maxValue)
    (hcount : values.length < 2 ^ 32) :
    ∃ bytes shared, encode f tablePrefix values = .ok bytes ∧
      Agrees f tablePrefix values bytes shared := by
  obtain ⟨bytes, hencode⟩ := @exists_encode f tablePrefix values hfit
  have hfields := fun hbytes hne => exists_fields_of_encode hencode hbytes hne hcount
  refine ⟨bytes, ⟨tablePrefix, (keptValues f values).toArray⟩, hencode,
    { decode_eq := decode_of_encode_of_lt hencode
        (Nat.lt_of_le_of_lt (length_keptValues_le f values) hcount)
      tablePrefix_eq := rfl
      value_eq := fun hbytes index hindex => ?_
      without := fun hnone => ⟨length_of_encode_of_none hencode hnone, ?_, fun index => ?_⟩
      once := fun hbytes hne hall => ?_
      each := fun hbytes hall => ?_
      part := fun hbytes hne n hn => decode_take_of_encode hencode hbytes hne hcount hn }⟩
  · rw [keptValues, if_neg hbytes]
    exact value?_storedValues tablePrefix (List.getElem?_eq_getElem hindex)
  · rw [keptValues_eq_nil hnone]
    rfl
  · simp [keptValues_eq_nil hnone, value?]
  · have hone := length_storedValues_of_allEqual hne hall
    obtain ⟨-, -, hlength⟩ := hfields hbytes hne
    rw [hone, Nat.mul_one] at hlength
    rw [keptValues, if_neg hbytes, List.size_toArray]
    exact ⟨hlength, hone⟩
  · have hne : values ≠ [] := by
      rintro rfl
      exact hall fun v hv => absurd hv List.not_mem_nil
    obtain ⟨-, -, hlength⟩ := hfields hbytes hne
    rw [storedValues_of_not_allEqual hall] at hlength
    rw [keptValues, if_neg hbytes, List.size_toArray, storedValues_of_not_allEqual hall]
    exact ⟨hlength, rfl⟩

/-- **Storing equal values once is transparent.**  Shared data is refused exactly if the format has
values and one of them is too large.  Otherwise it is written, and what is read from it agrees with
what was given. -/
theorem encode_transparent (f : Format) (tablePrefix : UInt32) (values : List UInt32)
    (hcount : values.length < 2 ^ 32) :
    ((∃ fault, encode f tablePrefix values = .error (.invalidArgument fault)) ↔
        SomeTooLarge f values) ∧
      (¬ SomeTooLarge f values → ∃ bytes shared, encode f tablePrefix values = .ok bytes ∧
        Agrees f tablePrefix values bytes shared) := by
  refine ⟨⟨?_, ?_⟩, fun hfit => exists_agrees (fun hbytes value hv => ?_) hcount⟩
  · rintro ⟨fault, h⟩
    obtain ⟨hbytes, value, hfind, -⟩ := encode_eq_error_iff.1 h
    exact ⟨hbytes, value, List.mem_of_find?_eq_some hfind, by simpa using List.find?_some hfind⟩
  · rintro ⟨hbytes, large, hmem, hlarge⟩
    cases hfind : values.find? (f.maxValue < ·.toNat) with
    | none => exact absurd hlarge (by simpa using List.find?_eq_none.1 hfind large hmem)
    | some value => exact ⟨_, encode_eq_error_iff.2 ⟨hbytes, value, hfind, rfl⟩⟩
  · by_contra hlarge
    exact hfit ⟨hbytes, value, hv, Nat.not_le.1 hlarge⟩

/-- A format with values of four bytes, of which the highest bit is not used. -/
def wordFormat : Format where
  params :=
    { level := 1, prefixBits := 4, suffixBits := 1, blockOffset := 1, recordBits := 8
      allowedList := true, valueBytes := 4 }
  valid := Params.fault?_eq_none_iff.1 (by decide)

/-- Three values of which two are equal are all stored, and a missing byte is noticed unless all
values are missing.  Two equal values are stored once.  A value with the highest bit is refused. -/
theorem encode_transparent_words :
    (∃ bytes shared, encode wordFormat 3 [7, 7, 0x7FFFFFFF] = .ok bytes ∧ bytes.length = 20 ∧
      decode wordFormat bytes = .ok shared ∧ shared.value? 2 = some 0x7FFFFFFF ∧
      decode wordFormat (bytes.take 8) = .ok ⟨3, #[]⟩ ∧
      ∃ fault, decode wordFormat (bytes.take 19) = .error (.corrupt fault)) ∧
      (∃ bytes, encode wordFormat 3 [7, 7] = .ok bytes ∧ bytes.length = 12) ∧
      ∃ fault, encode wordFormat 3 [7, 0x80000000] = .error (.invalidArgument fault) := by
  obtain ⟨-, hthree⟩ := encode_transparent wordFormat 3 [7, 7, 0x7FFFFFFF] (by decide)
  obtain ⟨-, htwo⟩ := encode_transparent wordFormat 3 [7, 7] (by decide)
  obtain ⟨hlarge, -⟩ := encode_transparent wordFormat 3 [7, 0x80000000] (by decide)
  obtain ⟨bytes, shared, hencode, hagrees⟩ := hthree (by decide +kernel)
  obtain ⟨bytes', shared', hencode', hagrees'⟩ := htwo (by decide +kernel)
  have hlength : bytes.length = 20 := (hagrees.each (by decide) (by decide +kernel)).1
  have hpart := hagrees.part (by decide) (by decide)
  exact ⟨⟨bytes, shared, hencode, hlength, hagrees.decode_eq,
    hagrees.value_eq (by decide) 2 (by decide), (hpart 8 (by omega)).1 (by omega),
    (hpart 19 (by omega)).2 (by omega)⟩,
    ⟨bytes', hencode', (hagrees'.once (by decide) (by decide) (by decide +kernel)).1⟩,
    hlarge.2 (by decide +kernel)⟩

end CellIndex.SharedData
