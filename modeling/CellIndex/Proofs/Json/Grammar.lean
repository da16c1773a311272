import CellIndex.Json.Reader
import Mathlib.Data.List.TakeWhile
import Mathlib.Tactic.Common

/-!
# The grammar of JSON

What a text of JSON stands for is said without a reader: blanks, the characters and escapes of a
string (`SpellsUnits`), the parts of a number (`Unsigned`), and values with blanks around everything
inside them (`Spells`).  A document is a value with blanks around it (`SpellsElement`).

A reader of a part has two laws.  It reads any text of the grammar, also in front of other text as
long as that does not go on with the part; and if it reads anything, this is a text of the grammar.
This file has these laws for blanks, strings and numbers.
-/

namespace CellIndex.Json

/-! ## Blanks -/

section Blanks

variable {c : Char} {text rest blank : List Char}

/-- The text is blank: it may stand between values. -/
def Blank (text : List Char) : Prop := ∀ c ∈ text, c ∈ [' ', '\t', '\n', '\r']

lemma isSpace_iff : isSpace c = true ↔ c ∈ [' ', '\t', '\n', '\r'] := by
  simp [isSpace, or_assoc]

lemma blank_nil : Blank [] := fun _ hc => absurd hc List.not_mem_nil

/-- Blanks in front are skipped. -/
lemma skipSpace_append (h : Blank blank) : skipSpace (blank ++ rest) = skipSpace rest :=
  List.dropWhile_append_of_pos fun c hc => isSpace_iff.2 (h c hc)

lemma skipSpace_cons (h : isSpace c = false) (text : List Char) :
    skipSpace (c :: text) = c :: text := by
  rw [skipSpace, List.dropWhile_cons, h, if_neg Bool.false_ne_true]

/-- What is skipped is blank. -/
lemma exists_blank_append (text : List Char) :
    ∃ blank, Blank blank ∧ text = blank ++ skipSpace text :=
  ⟨text.takeWhile isSpace, fun _ hc => isSpace_iff.1 (List.mem_takeWhile_imp hc),
    List.takeWhile_append_dropWhile.symm⟩

/-- Skipping stops at the end, or in front of what is not blank. -/
lemma skipSpace_skipSpace (text : List Char) : skipSpace (skipSpace text) = skipSpace text := by
  have hstop := List.head?_dropWhile_not isSpace text
  rw [← skipSpace] at hstop
  cases hskip : skipSpace text with
  | nil => rfl
  | cons c rest =>
    rw [hskip] at hstop
    exact skipSpace_cons hstop rest

end Blanks

/-! ## Strings -/

/-- The text stands between the quotes of a string for numbers: code points of characters, and the
numbers of four digits that escapes give. -/
inductive SpellsUnits : List Char → List Nat → Prop
  /-- Nothing. -/
  | nil : SpellsUnits [] []
  /-- A character that stands for itself. -/
  | char {c : Char} {text : List Char} {units : List Nat} : ' ' ≤ c → c ≠ '"' → c ≠ '\\' →
      SpellsUnits text units → SpellsUnits (c :: text) (c.toNat :: units)
  /-- A backslash and a letter. -/
  | letter {letter c : Char} {text : List Char} {units : List Nat} : escape? letter = some c →
      SpellsUnits text units → SpellsUnits ('\\' :: letter :: text) (c.toNat :: units)
  /-- A backslash, the letter `u` and four digits. -/
  | digits {a b c d : Char} {unit : Nat} {text : List Char} {units : List Nat} :
      Hexadecimal.decode? [a, b, c, d] = some unit → SpellsUnits text units →
      SpellsUnits ('\\' :: 'u' :: a :: b :: c :: d :: text) (unit :: units)

section Strings

variable {text rest : List Char} {units : List Nat}

/-- The characters and escapes of a string are read up to its closing quote. -/
lemma readUnits_append (h : SpellsUnits text units) (rest : List Char) :
    readUnits (text ++ '"' :: rest) = some (units, rest) := by
  induction h with
  | nil => rw [List.nil_append, readUnits]
  | char hc hquote hslash _ ih =>
    rw [List.cons_append, readUnits, if_neg, ih]
    · rfl
    · exact not_or.2 ⟨Char.not_lt.2 hc, hslash⟩
    · exact hquote
    · exact fun _ _ _ _ _ h => absurd h hslash
    · exact fun _ _ h => absurd h hslash
  | letter hletter _ ih =>
    rw [List.cons_append, List.cons_append, readUnits, hletter, ih]
    · rfl
    · -- the letter of four digits stands for no character of its own
      rintro _ _ _ _ _ rfl
      exact absurd hletter (Option.some_ne_none _).symm
  | digits hdigits _ ih =>
    simp only [List.cons_append, readUnits, hdigits, ih]
    rfl

/-- What is read up to a closing quote are the characters and escapes of a string. -/
lemma exists_of_readUnits (h : readUnits text = some (units, rest)) :
    ∃ front, text = front ++ '"' :: rest ∧ SpellsUnits front units := by
  fun_induction readUnits text generalizing units rest with
  | case1 => exact absurd h (Option.some_ne_none _).symm
  | case2 =>
    obtain ⟨rfl, rfl⟩ := Prod.mk.inj (Option.some.inj h)
    exact ⟨[], rfl, .nil⟩
  | case3 a b c d text ih =>
    simp only [Option.bind_eq_bind, Option.bind_eq_some_iff, Option.pure_def, Option.some.injEq,
      Prod.mk.injEq, Prod.exists] at h
    obtain ⟨unit, hunit, units, rest, hread, rfl, rfl⟩ := h
    obtain ⟨front, rfl, hfront⟩ := ih hread
    exact ⟨_, rfl, .digits hunit hfront⟩
  | case4 letter text hdigits ih =>
    simp only [Option.bind_eq_bind, Option.bind_eq_some_iff, Option.pure_def, Option.some.injEq,
      Prod.mk.injEq, Prod.exists] at h
    obtain ⟨c, hc, units, rest, hread, rfl, rfl⟩ := h
    obtain ⟨front, rfl, hfront⟩ := ih hread
    exact ⟨_, rfl, .letter hc hfront⟩
  | case5 => exact absurd h (Option.some_ne_none _).symm
  | case6 c text hquote _ _ hc ih =>
    simp only [Option.bind_eq_bind, Option.bind_eq_some_iff, Option.pure_def, Option.some.injEq,
      Prod.mk.injEq, Prod.exists] at h
    obtain ⟨units, rest, hread, rfl, rfl⟩ := h
    obtain ⟨front, rfl, hfront⟩ := ih hread
    rw [not_or, Char.not_lt] at hc
    exact ⟨_, rfl, .char hc.1 hquote hc.2 hfront⟩

end Strings

/-! ## Numbers -/

lemma isSpace_of_isDigit {c : Char} (h : Decimal.isDigit c = true) : isSpace c = false := by
  by_contra hspace
  rw [Bool.not_eq_false, isSpace_iff] at hspace
  simp only [List.mem_cons, List.not_mem_nil, or_false] at hspace
  rcases hspace with rfl | rfl | rfl | rfl <;> exact absurd h (by decide)

/-- One or more digits. -/
structure IsDigits (text : List Char) : Prop where
  /-- There is a digit. -/
  ne_nil : text ≠ []
  /-- There is nothing else. -/
  isDigit_of_mem : ∀ c ∈ text, Decimal.isDigit c = true

/-- Digits of which the first is zero only if it stands alone. -/
structure IsWhole (text : List Char) : Prop extends IsDigits text where
  /-- No zero stands in front. -/
  eq_zero_of_head : text.head? = some '0' → text = ['0']

/-- A point and digits. -/
def IsFraction (text : List Char) : Prop := ∃ digits, IsDigits digits ∧ text = '.' :: digits

/-- The letter `e` of either case, at most one sign, and digits. -/
def IsExponent (text : List Char) : Prop :=
  ∃ c sign digits, (c = 'e' ∨ c = 'E') ∧ (sign = [] ∨ sign = ['+'] ∨ sign = ['-']) ∧
    IsDigits digits ∧ text = c :: (sign ++ digits)

/-- A number without a sign, in its parts. -/
structure Unsigned where
  /-- The digits in front of the point. -/
  whole : List Char
  /-- The point and the digits behind it, if there are any. -/
  fraction : List Char := []
  /-- The exponent, if there is one. -/
  exponent : List Char := []
  isWhole : IsWhole whole
  isFraction : fraction = [] ∨ IsFraction fraction := by exact .inl rfl
  isExponent : exponent = [] ∨ IsExponent exponent := by exact .inl rfl

namespace Unsigned

/-- The number as it is written. -/
def text (n : Unsigned) : List Char := n.whole ++ (n.fraction ++ n.exponent)

/-- What the number stands for: its digits are looked at only if there is nothing behind them. -/
def value (n : Unsigned) : Json :=
  if n.fraction = [] ∧ n.exponent = [] then .nat (Decimal.value n.whole) else .number

lemma value_eq (n : Unsigned) :
    n.value = if decide (n.fraction ≠ []) || decide (n.exponent ≠ []) then .number
      else .nat (Decimal.value n.whole) := by
  rw [value]
  by_cases hfraction : n.fraction = [] <;> by_cases hexponent : n.exponent = [] <;>
    simp [hfraction, hexponent]

/-- A number without a sign begins with a digit. -/
lemma exists_cons (n : Unsigned) : ∃ c front, n.text = c :: front ∧ Decimal.isDigit c = true := by
  obtain ⟨c, digits, hwhole⟩ := List.exists_cons_of_ne_nil n.isWhole.ne_nil
  refine ⟨c, digits ++ (n.fraction ++ n.exponent), by rw [text, hwhole, List.cons_append], ?_⟩
  exact n.isWhole.isDigit_of_mem c (hwhole ▸ List.mem_cons_self)

end Unsigned

/-- The text does not go on with digits. -/
def EndsDigits (rest : List Char) : Prop := ∀ c ∈ rest.head?, Decimal.isDigit c = false

/-- The text does not go on with a number. -/
def EndsNumber (rest : List Char) : Prop :=
  ∀ c ∈ rest.head?, Decimal.isDigit c = false ∧ c ≠ '.' ∧ c ≠ 'e' ∧ c ≠ 'E'

section Numbers

variable {text rest digits fraction exponent : List Char} {n : Nat} {b : Bool}

lemma EndsNumber.endsDigits (h : EndsNumber rest) : EndsDigits rest := fun c hc => (h c hc).1

lemma IsFraction.endsDigits (h : IsFraction fraction) (rest : List Char) :
    EndsDigits (fraction ++ rest) := by
  obtain ⟨digits, -, rfl⟩ := h
  rintro c hc
  obtain rfl := Option.some.inj hc
  decide

lemma IsExponent.endsDigits (h : IsExponent exponent) (rest : List Char) :
    EndsDigits (exponent ++ rest) := by
  obtain ⟨c, sign, digits, hc, -, -, rfl⟩ := h
  rintro c' hc'
  obtain rfl := Option.some.inj hc'
  rcases hc with rfl | rfl <;> decide

lemma IsExponent.head_ne (h : IsExponent exponent) (rest : List Char) :
    ∀ c ∈ (exponent ++ rest).head?, c ≠ '.' := by
  obtain ⟨c, sign, digits, hc, -, -, rfl⟩ := h
  rintro c' hc'
  obtain rfl := Option.some.inj hc'
  rcases hc with rfl | rfl <;> decide

lemma readDigits_append (h : IsDigits digits) (hrest : EndsDigits rest) :
    readDigits (digits ++ rest) = some (digits, rest) := by
  have htake : rest.takeWhile Decimal.isDigit = [] := by
    cases rest with
    | nil => rfl
    | cons c rest => rw [List.takeWhile_cons, hrest c rfl, if_neg Bool.false_ne_true]
  have hdrop : rest.dropWhile Decimal.isDigit = rest := by
    cases rest with
    | nil => rfl
    | cons c rest => rw [List.dropWhile_cons, hrest c rfl, if_neg Bool.false_ne_true]
  rw [readDigits, List.takeWhile_append_of_pos h.isDigit_of_mem,
    List.dropWhile_append_of_pos h.isDigit_of_mem, htake, hdrop, List.append_nil,
    List.isEmpty_eq_false_iff.2 h.ne_nil]
  rfl

lemma isDigits_of_readDigits (h : readDigits text = some (digits, rest)) :
    IsDigits digits ∧ text = digits ++ rest := by
  rw [readDigits] at h
  split at h
  · exact absurd h (Option.some_ne_none _).symm
  · next hne =>
    obtain ⟨rfl, rfl⟩ := Prod.mk.inj (Option.some.inj h)
    exact ⟨⟨hne ∘ List.isEmpty_iff.2, fun _ hc => List.mem_takeWhile_imp hc⟩,
      List.takeWhile_append_dropWhile.symm⟩

lemma readWhole_append (h : IsWhole digits) (hrest : EndsDigits rest) :
    readWhole (digits ++ rest) = some (Decimal.value digits, rest) := by
  rw [readWhole, readDigits_append h.toIsDigits hrest]
  exact if_neg fun hzero => hzero.2 (h.eq_zero_of_head hzero.1)

lemma exists_of_readWhole (h : readWhole text = some (n, rest)) :
    ∃ digits, IsWhole digits ∧ text = digits ++ rest ∧ n = Decimal.value digits := by
  simp only [readWhole, Option.bind_eq_bind, Option.bind_eq_some_iff, Option.pure_def,
    Prod.exists] at h
  obtain ⟨digits, rest, hread, h⟩ := h
  obtain ⟨hdigits, rfl⟩ := isDigits_of_readDigits hread
  split at h
  · exact absurd h (Option.some_ne_none _).symm
  · next hzero =>
    obtain ⟨rfl, rfl⟩ := Prod.mk.inj (Option.some.inj h)
    refine ⟨digits, ⟨hdigits, fun hhead => ?_⟩, rfl, rfl⟩
    by_contra hne
    exact hzero ⟨hhead, hne⟩

lemma skipFraction_append (h : fraction = [] ∨ IsFraction fraction) (hrest : EndsDigits rest)
    (hpoint : ∀ c ∈ rest.head?, c ≠ '.') :
    skipFraction (fraction ++ rest) = some (decide (fraction ≠ []), rest) := by
  rcases h with rfl | ⟨digits, hdigits, rfl⟩
  · rw [List.nil_append, skipFraction]
    · rfl
    · rintro _ rfl
      exact hpoint '.' rfl rfl
  · rw [List.cons_append, skipFraction, readDigits_append hdigits hrest]
    rfl

lemma exists_of_skipFraction (h : skipFraction text = some (b, rest)) :
    ∃ fraction, (fraction = [] ∨ IsFraction fraction) ∧ text = fraction ++ rest ∧
      b = decide (fraction ≠ []) := by
  rw [skipFraction.eq_def] at h
  split at h
  · obtain ⟨⟨digits, rest'⟩, hread, heq⟩ := Option.map_eq_some_iff.1 h
    obtain ⟨rfl, rfl⟩ := Prod.mk.inj heq
    obtain ⟨hdigits, rfl⟩ := isDigits_of_readDigits hread
    exact ⟨'.' :: digits, .inr ⟨digits, hdigits, rfl⟩, rfl, rfl⟩
  · obtain ⟨rfl, rfl⟩ := Prod.mk.inj (Option.some.inj h)
    exact ⟨[], .inl rfl, rfl, rfl⟩

lemma skipSign_append {sign : List Char} (hsign : sign = [] ∨ sign = ['+'] ∨ sign = ['-'])
    (h : IsDigits digits) : skipSign (sign ++ (digits ++ rest)) = digits ++ rest := by
  rcases hsign with rfl | rfl | rfl
  · obtain ⟨c, digits, rfl⟩ := List.exists_cons_of_ne_nil h.ne_nil
    have hc := h.isDigit_of_mem c List.mem_cons_self
    rw [List.nil_append, List.cons_append, skipSign]
    · intro _ hplus
      exact absurd ((List.cons.inj hplus).1 ▸ hc) (by decide)
    · intro _ hminus
      exact absurd ((List.cons.inj hminus).1 ▸ hc) (by decide)
  · rfl
  · rfl

lemma exists_skipSign (text : List Char) :
    ∃ sign, (sign = [] ∨ sign = ['+'] ∨ sign = ['-']) ∧ text = sign ++ skipSign text := by
  rw [skipSign.eq_def]
  split
  · exact ⟨['+'], .inr (.inl rfl), rfl⟩
  · exact ⟨['-'], .inr (.inr rfl), rfl⟩
  · exact ⟨[], .inl rfl, rfl⟩

lemma skipExponent_append (h : exponent = [] ∨ IsExponent exponent) (hrest : EndsNumber rest) :
    skipExponent (exponent ++ rest) = some (decide (exponent ≠ []), rest) := by
  rcases h with rfl | ⟨c, sign, digits, hc, hsign, hdigits, rfl⟩
  · cases rest with
    | nil => rfl
    | cons c rest =>
      obtain ⟨-, -, he, hE⟩ := hrest c rfl
      rw [List.nil_append, skipExponent, if_neg (not_or.2 ⟨he, hE⟩)]
      rfl
  · rw [List.cons_append, skipExponent, if_pos hc, List.append_assoc,
      skipSign_append hsign hdigits, readDigits_append hdigits hrest.endsDigits]
    rfl

lemma exists_of_skipExponent (h : skipExponent text = some (b, rest)) :
    ∃ exponent, (exponent = [] ∨ IsExponent exponent) ∧ text = exponent ++ rest ∧
      b = decide (exponent ≠ []) := by
  rw [skipExponent.eq_def] at h
  split at h
  · next c text =>
    split at h
    · next hc =>
      obtain ⟨⟨digits, rest'⟩, hread, heq⟩ := Option.map_eq_some_iff.1 h
      obtain ⟨rfl, rfl⟩ := Prod.mk.inj heq
      obtain ⟨hdigits, hskip⟩ := isDigits_of_readDigits hread
      obtain ⟨sign, hsign, htext⟩ := exists_skipSign text
      refine ⟨c :: (sign ++ digits), .inr ⟨c, sign, digits, hc, hsign, hdigits, rfl⟩, ?_, rfl⟩
      rw [htext, hskip, List.cons_append, List.append_assoc]
    · obtain ⟨rfl, rfl⟩ := Prod.mk.inj (Option.some.inj h)
      exact ⟨[], .inl rfl, rfl, rfl⟩
  · obtain ⟨rfl, rfl⟩ := Prod.mk.inj (Option.some.inj h)
    exact ⟨[], .inl rfl, rfl, rfl⟩

/-- A number without a sign is read, if the text does not go on with it. -/
lemma readUnsigned_append (n : Unsigned) (hrest : EndsNumber rest) :
    readUnsigned (n.text ++ rest) = some (n.value, rest) := by
  have hexponent : EndsDigits (n.exponent ++ rest) ∧
      ∀ c ∈ (n.exponent ++ rest).head?, c ≠ '.' := by
    rcases n.isExponent with h | h
    · rw [h, List.nil_append]
      exact ⟨hrest.endsDigits, fun c hc => (hrest c hc).2.1⟩
    · exact ⟨h.endsDigits rest, h.head_ne rest⟩
  have hfraction : EndsDigits (n.fraction ++ (n.exponent ++ rest)) := by
    rcases n.isFraction with h | h
    · rw [h, List.nil_append]
      exact hexponent.1
    · exact h.endsDigits _
  rw [readUnsigned, Unsigned.text, List.append_assoc, List.append_assoc,
    readWhole_append n.isWhole hfraction]
  simp only [Option.bind_eq_bind, Option.bind_some,
    skipFraction_append n.isFraction hexponent.1 hexponent.2,
    skipExponent_append n.isExponent hrest, n.value_eq]
  rfl

/-- What is read without a sign is a number. -/
lemma exists_of_readUnsigned {value : Json} (h : readUnsigned text = some (value, rest)) :
    ∃ n : Unsigned, text = n.text ++ rest ∧ value = n.value := by
  simp only [readUnsigned, Option.bind_eq_bind, Option.bind_eq_some_iff, Option.pure_def,
    Option.some.injEq, Prod.mk.injEq, Prod.exists] at h
  obtain ⟨n, rest, hwhole, b, rest, hfraction, b', rest, hexponent, rfl, rfl⟩ := h
  obtain ⟨whole, isWhole, rfl, rfl⟩ := exists_of_readWhole hwhole
  obtain ⟨fraction, isFraction, rfl, rfl⟩ := exists_of_skipFraction hfraction
  obtain ⟨exponent, isExponent, rfl, rfl⟩ := exists_of_skipExponent hexponent
  let n : Unsigned := { whole, fraction, exponent, isWhole, isFraction, isExponent }
  refine ⟨n, ?_, n.value_eq.symm⟩
  simp only [n, Unsigned.text, List.append_assoc]

end Numbers

/-! ## Values -/

mutual

/-- The text is a value. -/
inductive Spells : List Char → Json → Prop
  /-- The null value. -/
  | nullWord : Spells "null".toList .null
  /-- The truth value that holds. -/
  | trueWord : Spells "true".toList (.bool true)
  /-- The truth value that does not hold. -/
  | falseWord : Spells "false".toList (.bool false)
  /-- A number without a sign. -/
  | unsigned (n : Unsigned) : Spells n.text n.value
  /-- A number with a minus sign. -/
  | negative (n : Unsigned) : Spells ('-' :: n.text) .number
  /-- A string. -/
  | string {text : List Char} {units : List Nat} : SpellsUnits text units →
      Spells ('"' :: (text ++ ['"'])) (.string (textOfUnits units))
  /-- A list without items. -/
  | emptyArray {blank : List Char} : Blank blank → Spells ('[' :: (blank ++ [']'])) (.array [])
  /-- A list of items. -/
  | array {text : List Char} {items : List Json} : SpellsItems text items →
      Spells ('[' :: (text ++ [']'])) (.array items)
  /-- An object without members. -/
  | emptyObject {blank : List Char} : Blank blank →
      Spells ('\x7b' :: (blank ++ ['\x7d'])) (.object [])
  /-- An object with members. -/
  | object {text : List Char} {members : List (Option (List Char) × Json)} :
      SpellsMembers text members → Spells ('\x7b' :: (text ++ ['\x7d'])) (.object members)

/-- The text is a value with blanks around it. -/
inductive SpellsElement : List Char → Json → Prop
  | mk {before text after : List Char} {value : Json} : Blank before → Spells text value →
      Blank after → SpellsElement (before ++ (text ++ after)) value

/-- The text is one or more items with commas between them. -/
inductive SpellsItems : List Char → List Json → Prop
  | one {text : List Char} {item : Json} : SpellsElement text item → SpellsItems text [item]
  | cons {text rest : List Char} {item : Json} {items : List Json} : SpellsElement text item →
      SpellsItems rest items → SpellsItems (text ++ ',' :: rest) (item :: items)

/-- The text is one or more members with commas between them: strings, colons and values. -/
inductive SpellsMembers : List Char → List (Option (List Char) × Json) → Prop
  | one {before key after text : List Char} {units : List Nat} {value : Json} : Blank before →
      SpellsUnits key units → Blank after → SpellsElement text value →
      SpellsMembers (before ++ '"' :: (key ++ '"' :: (after ++ ':' :: text)))
        [(textOfUnits units, value)]
  | cons {before key after text rest : List Char} {units : List Nat} {value : Json}
      {members : List (Option (List Char) × Json)} : Blank before →
      SpellsUnits key units → Blank after → SpellsElement text value → SpellsMembers rest members →
      SpellsMembers (before ++ '"' :: (key ++ '"' :: (after ++ ':' :: (text ++ ',' :: rest))))
        ((textOfUnits units, value) :: members)

end

end CellIndex.Json
