import CellIndex.Proofs.Bytes.Field
import CellIndex.SuffixTable.SharedData

/-!
# Shared data is read back

The values of a table are written once if they are all equal, and not at all if the format has none.
Either way the shared data is read as what has been written (`decode_of_encode_of_lt`), and the
value at a place of the table is the one that was given for it (`value?_storedValues`).
-/

namespace CellIndex

/-- The largest value of a format fits the bytes of a value. -/
lemma Format.maxValue_lt (f : Format) : f.maxValue < 256 ^ f.valueBytes := by
  have hle : f.valueBytes ≤ 4 := f.valid.valueBytes_le
  have hp : 0 < 256 ^ f.valueBytes := Nat.pow_pos (by decide)
  rw [maxValue]
  split
  · omega
  · have h4 : f.valueBytes = 4 := by omega
    rw [h4]
    decide

namespace SharedData

variable {f : Format} {tablePrefix value : UInt32} {values : List UInt32} {bytes : Bytes}

/-- The values that a format stores. -/
def keptValues (f : Format) (values : List UInt32) : List UInt32 :=
  if f.valueBytes = 0 then [] else storedValues values

lemma mem_of_mem_storedValues (h : value ∈ storedValues values) : value ∈ values := by
  cases values with
  | nil => exact h
  | cons first rest =>
    rw [storedValues] at h
    split at h
    · exact List.mem_singleton.1 h ▸ List.mem_cons_self
    · exact h

/-- Either one value is stored, or all are. -/
lemma length_storedValues (values : List UInt32) :
    (storedValues values).length ≤ 1 ∨ storedValues values = values := by
  cases values with
  | nil => exact Or.inr rfl
  | cons first rest =>
    rw [storedValues]
    split
    · exact Or.inl (Nat.le_refl 1)
    · exact Or.inr rfl

lemma length_storedValues_le (values : List UInt32) :
    (storedValues values).length ≤ values.length := by
  cases values with
  | nil => exact Nat.le_refl _
  | cons first rest =>
    rw [storedValues]
    split <;> simp

lemma length_storedValues_pos (h : values ≠ []) : 0 < (storedValues values).length := by
  cases values with
  | nil => exact absurd rfl h
  | cons first rest =>
    rw [storedValues]
    split
    · exact Nat.one_pos
    · exact Nat.succ_pos _

/-- More values never make fewer that are stored. -/
lemma length_storedValues_append (front back : List UInt32) :
    (storedValues front).length ≤ (storedValues (front ++ back)).length := by
  cases front with
  | nil => exact Nat.zero_le _
  | cons first rest =>
    rw [List.cons_append, storedValues, storedValues]
    by_cases hall : (rest ++ back).all (· = first) = true
    · have hrest : rest.all (· = first) = true := by
        rw [List.all_append, Bool.and_eq_true] at hall
        exact hall.1
      refine Nat.le_of_eq ?_
      rw [if_pos hall, if_pos hrest]
    · rw [if_neg hall]
      split <;> simp

lemma length_keptValues_le (f : Format) (values : List UInt32) :
    (keptValues f values).length ≤ values.length := by
  rw [keptValues]
  split
  · exact Nat.zero_le _
  · exact length_storedValues_le values

/-- The value at a place is the one that was given for it, even if it is stored only once. -/
lemma value?_storedValues (tablePrefix : UInt32) {index : Nat} (h : values[index]? = some value) :
    value? ⟨tablePrefix, (storedValues values).toArray⟩ index = some value := by
  have hmem := List.mem_of_getElem? h
  cases values with
  | nil => exact absurd hmem List.not_mem_nil
  | cons first rest =>
    rw [value?, storedValues]
    -- one value is stored if all are equal, and then it stands for all of them
    by_cases hall : rest.all (· = first) = true
    · have heq : value = first := by
        rcases List.mem_cons.1 hmem with hv | hv
        · exact hv
        · exact of_decide_eq_true (List.all_eq_true.1 hall value hv)
      rw [if_pos hall, heq]
      rfl
    · -- two different values cannot be one value
      have hlen : (first :: rest).length ≠ 1 := by
        rintro hl
        obtain rfl : rest = [] := List.length_eq_zero_iff.1 (Nat.succ.inj hl)
        exact hall rfl
      rw [if_neg hall, if_neg (by simpa using hlen)]
      simpa using h

/-- The parts that encoded shared data consists of. -/
lemma encode_eq_ok (h : encode f tablePrefix values = .ok bytes) :
    (keptValues f values = [] ∧ bytes = BigEndian.encode 4 tablePrefix.toNat) ∨
      (f.valueBytes ≠ 0 ∧ values ≠ [] ∧ (∀ value ∈ values, value.toNat ≤ f.maxValue) ∧
        bytes = BigEndian.encode 4 tablePrefix.toNat ++ valueSection f (storedValues values)) := by
  rw [encode] at h
  split at h
  · next hnone =>
    refine Or.inl ⟨?_, (Except.ok.inj h).symm⟩
    rw [keptValues]
    rcases hnone with hv | rfl
    · rw [if_pos hv]
    · exact ite_self _
  · next hsome =>
    rw [not_or] at hsome
    split at h
    · exact absurd h (by simp)
    · next hfind =>
      refine Or.inr ⟨hsome.1, hsome.2, fun value hv => ?_, (Except.ok.inj h).symm⟩
      simpa using List.find?_eq_none.1 hfind value hv

/-- Shared data is written if all values can be stored. -/
lemma exists_encode (h : f.valueBytes ≠ 0 → ∀ value ∈ values, value.toNat ≤ f.maxValue) :
    ∃ shared, encode f tablePrefix values = .ok shared := by
  rw [encode]
  split
  · exact ⟨_, rfl⟩
  · next hsome =>
    have hfind : values.find? (f.maxValue < ·.toNat) = none := by
      refine List.find?_eq_none.2 fun value hv => ?_
      simpa using h (fun hb => hsome (Or.inl hb)) value hv
    simp only [hfind]
    exact ⟨_, rfl⟩

lemma length_valueSection (f : Format) (values : List UInt32) :
    (valueSection f values).length = 4 + f.valueBytes * values.length := by
  have h := BigEndian.length_flatMap_encode f.valueBytes (values.map UInt32.toNat)
  rw [List.flatMap_map, List.length_map] at h
  rw [valueSection, List.length_append, BigEndian.length_encode, h]

/-- Shared data gets no shorter if there are more values. -/
lemma length_le_of_encode_append {front back : List UInt32} {bytes' : Bytes}
    (h : encode f tablePrefix front = .ok bytes)
    (h' : encode f tablePrefix (front ++ back) = .ok bytes') : bytes.length ≤ bytes'.length := by
  have hstored := length_storedValues_append front back
  rcases encode_eq_ok h with ⟨-, rfl⟩ | ⟨hbytes, hne, -, rfl⟩
  · rcases encode_eq_ok h' with ⟨-, rfl⟩ | ⟨-, -, -, rfl⟩
    · exact Nat.le_refl _
    · rw [List.length_append]
      exact Nat.le_add_right _ _
  · have hpos := length_storedValues_pos hne
    rcases encode_eq_ok h' with ⟨hkept, rfl⟩ | ⟨-, -, -, rfl⟩
    · -- the values in front are stored, so all of them cannot be left out
      rw [keptValues, if_neg hbytes] at hkept
      rw [hkept, List.length_nil] at hstored
      omega
    · rw [List.length_append, List.length_append, length_valueSection, length_valueSection]
      have hmul := Nat.mul_le_mul_left f.valueBytes hstored
      omega

/-- The values behind their number are read back. -/
lemma decodeMany_values (h : ∀ value ∈ values, value.toNat ≤ f.maxValue) :
    (BigEndian.decodeMany f.valueBytes values.length
      (values.flatMap fun value => BigEndian.encode f.valueBytes value.toNat)).map UInt32.ofNat =
      values := by
  have hlt : ∀ n ∈ values.map UInt32.toNat, n < 256 ^ f.valueBytes := by
    intro n hn
    obtain ⟨value, hv, rfl⟩ := List.mem_map.1 hn
    exact Nat.lt_of_le_of_lt (h value hv) f.maxValue_lt
  have hd := BigEndian.decodeMany_flatMap_encode hlt []
  rw [List.length_map, List.flatMap_map, List.append_nil] at hd
  rw [hd, List.map_map]
  exact List.map_id'' (fun w => UInt32.ofNat_toNat) values

lemma decode_front (f : Format) (tablePrefix : UInt32) :
    decode f (BigEndian.encode 4 tablePrefix.toNat) = .ok ⟨tablePrefix, #[]⟩ := by
  have hnumber := @Bytes.number_encode_uint32 [] tablePrefix
  rw [List.append_nil] at hnumber
  rw [decode, hnumber, UInt32.ofNat_toNat, BigEndian.length_encode, if_neg (by decide),
    if_pos (Or.inr (by decide))]

lemma decode_valueSection (hbytes : f.valueBytes ≠ 0) (hne : values ≠ [])
    (hfit : ∀ value ∈ values, value.toNat ≤ f.maxValue) (hcount : values.length < 2 ^ 32) :
    decode f (BigEndian.encode 4 tablePrefix.toNat ++ valueSection f values) =
      .ok ⟨tablePrefix, values.toArray⟩ := by
  have hmul : 0 < f.valueBytes * values.length :=
    Nat.mul_pos (Nat.pos_of_ne_zero hbytes) (List.length_pos_iff.2 hne)
  have hlen : (BigEndian.encode 4 tablePrefix.toNat ++ valueSection f values).length =
      8 + f.valueBytes * values.length := by
    rw [List.length_append, length_valueSection, BigEndian.length_encode]
    omega
  have hnumber : Bytes.number (BigEndian.encode 4 tablePrefix.toNat ++ valueSection f values) 4 4 =
      values.length := by
    rw [Bytes.number_skip (Nat.le_of_eq (BigEndian.length_encode _ _)), BigEndian.length_encode,
      valueSection, Bytes.number_encode hcount]
  have hdrop : (BigEndian.encode 4 tablePrefix.toNat ++ valueSection f values).drop 8 =
      values.flatMap fun value => BigEndian.encode f.valueBytes value.toNat := by
    rw [valueSection, ← List.append_assoc]
    exact List.drop_left' (by simp)
  rw [decode, hlen, if_neg (by omega), if_neg (by omega), hnumber, hdrop,
    Bytes.number_encode_uint32, UInt32.ofNat_toNat]
  simp only [decodeMany_values hfit, Nat.lt_irrefl, and_false, if_false]

/-- Each stored value takes at least a byte. -/
lemma length_keptValues_le_of_encode (h : encode f tablePrefix values = .ok bytes) :
    (keptValues f values).length ≤ bytes.length := by
  rcases encode_eq_ok h with ⟨hkept, -⟩ | ⟨hbytes, -, -, rfl⟩
  · rw [hkept]
    exact Nat.zero_le _
  · have : (storedValues values).length ≤ f.valueBytes * (storedValues values).length :=
      Nat.le_mul_of_pos_left _ (Nat.pos_of_ne_zero hbytes)
    rw [keptValues, if_neg hbytes, List.length_append, length_valueSection, BigEndian.length_encode]
    omega

/-- Shared data of no more values than a word can count is read back as its prefix and the values
that the format stores. -/
lemma decode_of_encode_of_lt (h : encode f tablePrefix values = .ok bytes)
    (hcount : (keptValues f values).length < 2 ^ 32) :
    decode f bytes = .ok ⟨tablePrefix, (keptValues f values).toArray⟩ := by
  rcases encode_eq_ok h with ⟨hkept, rfl⟩ | ⟨hbytes, hne, hfit, rfl⟩
  · rw [decode_front, hkept]
  · rw [keptValues, if_neg hbytes] at hcount ⊢
    refine decode_valueSection hbytes ?_ (fun value hv => ?_) hcount
    · exact List.ne_nil_of_length_pos (length_storedValues_pos hne)
    · exact hfit value (mem_of_mem_storedValues hv)

end SharedData

end CellIndex
