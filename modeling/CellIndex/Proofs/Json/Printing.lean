import CellIndex.Json.Printer
import CellIndex.Proofs.Json.Grammar
import CellIndex.Proofs.Text.Basic

/-!
# Printed records are of the grammar

A record is written as an object that has its members in their order (`spells_compact`): keys that
need no escapes stand for themselves, and a number is written without zeros in front.
-/

namespace CellIndex.Json

/-! ## Keys -/

/-- A character that may stand in a string as it is. -/
def IsPlain (c : Char) : Prop := ' ' ≤ c ∧ c ≠ '"' ∧ c ≠ '\\'
deriving Decidable

section Keys

variable {text : List Char}

lemma spellsUnits_of_plain (h : ∀ c ∈ text, IsPlain c) :
    SpellsUnits text (text.map Char.toNat) := by
  induction text with
  | nil => exact .nil
  | cons c text ih =>
    obtain ⟨hspace, hquote, hslash⟩ := h c List.mem_cons_self
    exact .char hspace hquote hslash (ih fun c hc => h c (List.mem_cons_of_mem _ hc))

/-- No character has the number of half a surrogate pair. -/
lemma not_surrogate (c : Char) :
    isHighSurrogate c.toNat = false ∧ isLowSurrogate c.toNat = false := by
  have hvalid : c.toNat < 0xD800 ∨ 0xDFFF < c.toNat ∧ c.toNat < 0x110000 := c.valid
  simp only [isHighSurrogate, isLowSurrogate, Bool.and_eq_false_iff, decide_eq_false_iff_not]
  omega

/-- Characters are read back from their numbers. -/
lemma textOfUnits_map (text : List Char) : textOfUnits (text.map Char.toNat) = some text := by
  induction text with
  | nil => rfl
  | cons c text ih =>
    obtain ⟨hhigh, hlow⟩ := not_surrogate c
    cases text with
    | nil => rw [List.map_cons, List.map_nil, textOfUnits, hhigh, hlow, Char.ofNat_toNat]; rfl
    | cons d text =>
      rw [List.map_cons] at ih ⊢
      rw [List.map_cons, textOfUnits, hlow, hhigh, ih, Char.ofNat_toNat]
      rfl

end Keys

/-! ## Numbers -/

/-- A number is written without zeros in front. -/
lemma isWhole_toDigits (n : Nat) : IsWhole (Nat.toDigits 10 n) where
  ne_nil := Nat.toDigits_ne_nil
  isDigit_of_mem := fun _ hc => Decimal.isDigit_of_mem_toDigits hc
  eq_zero_of_head := by
    induction n using Nat.strong_induction_on with
    | _ n ih =>
      rw [Nat.toDigits_eq_if (by decide)]
      split
      · exact fun hhead => congrArg (· :: []) (Option.some.inj hhead)
      · intro hhead
        -- otherwise the upper digits would be those of zero
        obtain ⟨c, digits, hdigits⟩ :=
          List.exists_cons_of_ne_nil (Nat.toDigits_ne_nil (b := 10) (n := n / 10))
        rw [hdigits] at hhead
        have hzero := congrArg Decimal.value (ih (n / 10) (by omega) (hdigits ▸ hhead))
        rw [Decimal.value_toDigits] at hzero
        change n / 10 = 0 at hzero
        omega

/-! ## Records -/

/-- The value that a written value is. -/
def Scalar.json : Scalar → Json
  | nat n => .nat n
  | bool b => .bool b

lemma Scalar.spells (s : Scalar) : Spells s.text s.json := by
  cases s with
  | nat n =>
    let u : Unsigned := { whole := Nat.toDigits 10 n, isWhole := isWhole_toDigits n }
    have htext : u.text = Nat.toDigits 10 n := List.append_nil _
    have hvalue : u.value = .nat n := congrArg Json.nat (Decimal.value_toDigits n)
    have hspells := Spells.unsigned u
    rw [htext, hvalue] at hspells
    exact hspells
  | bool b =>
    cases b with
    | false => exact .falseWord
    | true => exact .trueWord

/-- A value is an element, without blanks around it. -/
lemma Spells.element {text : List Char} {value : Json} (h : Spells text value) :
    SpellsElement text value := by
  have helement := SpellsElement.mk blank_nil h blank_nil
  rwa [List.append_nil] at helement

/-- The member of an object that a written member is. -/
def memberOf (m : String × Scalar) : Option (List Char) × Json := (some m.1.toList, m.2.json)

/-- Members with plain keys are written as such. -/
lemma spellsMembers_intercalate {first : String × Scalar} {others : List (String × Scalar)}
    (h : ∀ m ∈ first :: others, ∀ c ∈ m.1.toList, IsPlain c) :
    SpellsMembers
      ([','].intercalate ((first :: others).map fun (key, value) =>
        keyText key ++ ':' :: value.text))
      ((first :: others).map memberOf) := by
  induction others generalizing first with
  | nil =>
    have hkey := spellsUnits_of_plain (h first List.mem_cons_self)
    have hmember := SpellsMembers.one blank_nil hkey blank_nil first.2.spells.element
    rw [textOfUnits_map] at hmember
    simpa [List.intercalate, keyText, memberOf] using hmember
  | cons second others ih =>
    have hkey := spellsUnits_of_plain (h first List.mem_cons_self)
    have hothers := ih fun m hm => h m (List.mem_cons_of_mem _ hm)
    have hmember := SpellsMembers.cons blank_nil hkey blank_nil first.2.spells.element hothers
    rw [textOfUnits_map] at hmember
    simpa [List.intercalate, keyText, memberOf] using hmember

/-- A record is written as an object with its members. -/
lemma spells_compact {members : List (String × Scalar)}
    (h : ∀ m ∈ members, ∀ c ∈ m.1.toList, IsPlain c) :
    Spells (compact members) (.object (members.map memberOf)) := by
  cases members with
  | nil => exact .emptyObject blank_nil
  | cons first others => exact .object (spellsMembers_intercalate h)

end CellIndex.Json
