import CellIndex.Proofs.Json.Grammar

/-!
# Reading is parsing

The reader takes exactly the texts of the grammar (`spellsElement_iff`).  Both directions go by
induction on the depth that is left to the reader, over the three kinds of text at once: a depth of
two for each character is enough for any text of the grammar (`Complete`), and what is read is such
a text (`Sound`).  Blanks in front of a value change nothing (`readValue_skipSpace`), so each reader
is seen as one of elements.  As the reader finds one value, no text spells two
(`SpellsElement.unique`).
-/

namespace CellIndex.Json

variable {c : Char} {text rest blank : List Char} {value : Json} {items : List Json}
  {members : List (Option (List Char) × Json)} {depth : Nat}

/-! ## First characters -/

lemma readValue_skipSpace (depth : Nat) (text : List Char) :
    readValue depth (skipSpace text) = readValue depth text := by
  cases depth with
  | zero => rfl
  | succ depth => rw [readValue, readValue, skipSpace_skipSpace]

lemma readItems_skipSpace (depth : Nat) (text : List Char) :
    readItems depth (skipSpace text) = readItems depth text := by
  cases depth with
  | zero => rfl
  | succ depth => rw [readItems, readItems, readValue_skipSpace]

lemma readMembers_skipSpace (depth : Nat) (text : List Char) :
    readMembers depth (skipSpace text) = readMembers depth text := by
  cases depth with
  | zero => rfl
  | succ depth => rw [readMembers, readMembers, skipSpace_skipSpace]

lemma readValue_append (h : Blank blank) (depth : Nat) (text : List Char) :
    readValue depth (blank ++ text) = readValue depth text := by
  rw [← readValue_skipSpace, skipSpace_append h, readValue_skipSpace]

/-- A digit begins a number. -/
lemma readValue_of_isDigit (depth : Nat) (text : List Char) (h : Decimal.isDigit c = true) :
    readValue (depth + 1) (c :: text) = readUnsigned (c :: text) := by
  have hne : ∀ b, Decimal.isDigit b = false → c ≠ b := by
    rintro b hb rfl
    rw [h] at hb
    exact Bool.noConfusion hb
  rw [readValue, skipSpace_cons (isSpace_of_isDigit h)]
  split
  case h_7 =>
    rw [readNumber]
    exact fun _ heq => hne '-' (by decide) (List.cons.inj heq).1
  all_goals
    next heq => exact absurd (List.cons.inj heq).1 (hne _ (by decide))

lemma readValue_string (depth : Nat) (text : List Char) :
    readValue (depth + 1) ('"' :: text) =
      (readString text).map fun read => (.string read.1, read.2) := rfl

lemma readValue_negative (depth : Nat) (text : List Char) :
    readValue (depth + 1) ('-' :: text) =
      (readUnsigned text).map fun read => (.number, read.2) := rfl

lemma readValue_emptyArray (depth : Nat) (h : Blank blank) :
    readValue (depth + 1) ('[' :: (blank ++ ']' :: rest)) = some (.array [], rest) := by
  have hclose : skipSpace (blank ++ ']' :: rest) = ']' :: rest := skipSpace_append h
  have hopen : skipSpace ('[' :: (blank ++ ']' :: rest)) = '[' :: (blank ++ ']' :: rest) := rfl
  rw [readValue, hopen]
  simp only [hclose]

lemma readValue_emptyObject (depth : Nat) (h : Blank blank) :
    readValue (depth + 1) ('\x7b' :: (blank ++ '\x7d' :: rest)) = some (.object [], rest) := by
  have hclose : skipSpace (blank ++ '\x7d' :: rest) = '\x7d' :: rest := skipSpace_append h
  have hopen : skipSpace ('\x7b' :: (blank ++ '\x7d' :: rest)) =
      '\x7b' :: (blank ++ '\x7d' :: rest) := rfl
  rw [readValue, hopen]
  simp only [hclose]

lemma readValue_array (depth : Nat) (hclose : (skipSpace text).head? ≠ some ']') :
    readValue (depth + 1) ('[' :: text) =
      (readItems depth text).map fun read => (.array read.1, read.2) := by
  rw [readValue, ← readItems_skipSpace depth text]
  have hskip : skipSpace ('[' :: text) = '[' :: text := rfl
  rw [hskip]
  simp only
  split
  · next heq => exact absurd (congrArg List.head? heq) hclose
  · rfl

lemma readValue_object (depth : Nat) (hclose : (skipSpace text).head? ≠ some '\x7d') :
    readValue (depth + 1) ('\x7b' :: text) =
      (readMembers depth text).map fun read => (.object read.1, read.2) := by
  rw [readValue, ← readMembers_skipSpace depth text]
  have hskip : skipSpace ('\x7b' :: text) = '\x7b' :: text := rfl
  rw [hskip]
  simp only
  split
  · next heq => exact absurd (congrArg List.head? heq) hclose
  · rfl

/-! ## Texts of the grammar are read -/

lemma endsNumber_blank_append (hblank : Blank blank) (h : EndsNumber rest) :
    EndsNumber (blank ++ rest) := by
  cases blank with
  | nil => exact h
  | cons b blank =>
    intro c hc
    obtain rfl := Option.some.inj hc
    have hspace := hblank b List.mem_cons_self
    simp only [List.mem_cons, List.not_mem_nil, or_false] at hspace
    rcases hspace with rfl | rfl | rfl | rfl <;> decide

/-- A value begins with a character that is not blank and closes nothing. -/
lemma Spells.exists_cons (h : Spells text value) :
    ∃ c front, text = c :: front ∧ isSpace c = false ∧ c ≠ ']' := by
  cases h with
  | unsigned n =>
    obtain ⟨c, front, htext, hdigit⟩ := n.exists_cons
    refine ⟨c, front, htext, isSpace_of_isDigit hdigit, ?_⟩
    rintro rfl
    exact absurd hdigit (by decide)
  | nullWord => exact ⟨_, _, rfl, by decide, by decide⟩
  | trueWord => exact ⟨_, _, rfl, by decide, by decide⟩
  | falseWord => exact ⟨_, _, rfl, by decide, by decide⟩
  | negative n => exact ⟨_, _, rfl, by decide, by decide⟩
  | string => exact ⟨_, _, rfl, by decide, by decide⟩
  | emptyArray => exact ⟨_, _, rfl, by decide, by decide⟩
  | array => exact ⟨_, _, rfl, by decide, by decide⟩
  | emptyObject => exact ⟨_, _, rfl, by decide, by decide⟩
  | object => exact ⟨_, _, rfl, by decide, by decide⟩

lemma SpellsElement.head_skipSpace_ne (h : SpellsElement text value) (rest : List Char) :
    (skipSpace (text ++ rest)).head? ≠ some ']' := by
  obtain @⟨before, text, after, value, hbefore, htext, -⟩ := h
  obtain ⟨c, front, rfl, hspace, hne⟩ := htext.exists_cons
  rw [List.append_assoc, skipSpace_append hbefore, List.append_assoc, List.cons_append,
    skipSpace_cons hspace]
  exact fun heq => hne (Option.some.inj heq)

lemma SpellsItems.head_skipSpace_ne (h : SpellsItems text items) (rest : List Char) :
    (skipSpace (text ++ rest)).head? ≠ some ']' := by
  cases h with
  | one hitem => exact hitem.head_skipSpace_ne rest
  | cons hitem _ =>
    rw [List.append_assoc]
    exact hitem.head_skipSpace_ne _

lemma SpellsMembers.head_skipSpace_ne (h : SpellsMembers text members) (rest : List Char) :
    (skipSpace (text ++ rest)).head? ≠ some '\x7d' := by
  cases h with
  | one hbefore _ _ _ =>
    rw [List.append_assoc, skipSpace_append hbefore]
    exact fun heq => absurd (Option.some.inj heq) (by decide)
  | cons hbefore _ _ _ _ =>
    rw [List.append_assoc, skipSpace_append hbefore]
    exact fun heq => absurd (Option.some.inj heq) (by decide)

/-- A word is read where it stands. -/
lemma readWord_append (word : List Char) (value : Json) (rest : List Char) :
    readWord word value (word ++ rest) = some (value, rest) := by
  rw [readWord, if_pos (List.isPrefixOf_iff_prefix.2 (List.prefix_append word rest)),
    List.drop_left]

/-- A key is read up to the value behind its colon. -/
lemma readString_append {key : List Char} {units : List Nat} (h : SpellsUnits key units)
    (rest : List Char) : readString (key ++ '"' :: rest) = some (textOfUnits units, rest) := by
  rw [readString, readUnits_append h]
  rfl

lemma endsNumber_nil : EndsNumber [] := fun _ hc => absurd hc (Option.some_ne_none _).symm

/-- No number goes on with what may stand behind an element. -/
lemma endsNumber_cons (c : Char) (h : c = ',' ∨ c = ']' ∨ c = '\x7d') (rest : List Char) :
    EndsNumber (c :: rest) := by
  intro c' hc'
  obtain rfl := Option.some.inj hc'
  rcases h with rfl | rfl | rfl <;> decide

/-- An item in front of the closing bracket is the last one. -/
lemma readItems_last {item : Json} (h : readValue depth text = some (item, blank ++ ']' :: rest))
    (hblank : Blank blank) : readItems (depth + 1) text = some ([item], rest) := by
  have hclose : skipSpace (blank ++ ']' :: rest) = ']' :: rest := skipSpace_append hblank
  rw [readItems, h]
  simp only [Option.bind_eq_bind, Option.bind_some, hclose]
  rfl

/-- An item in front of a comma is followed by others. -/
lemma readItems_comma {item : Json} (h : readValue depth text = some (item, blank ++ ',' :: rest))
    (hblank : Blank blank) :
    readItems (depth + 1) text =
      (readItems depth rest).map fun read => (item :: read.1, read.2) := by
  have hcomma : skipSpace (blank ++ ',' :: rest) = ',' :: rest := skipSpace_append hblank
  rw [readItems, h]
  simp only [Option.bind_eq_bind, Option.bind_some, hcomma]
  cases readItems depth rest <;> rfl

section Members

variable {before key after : List Char} {units : List Nat}

/-- A member in front of the closing brace is the last one. -/
lemma readMembers_last (hbefore : Blank before) (hkey : SpellsUnits key units)
    (hafter : Blank after) (h : readValue depth text = some (value, blank ++ '\x7d' :: rest))
    (hblank : Blank blank) :
    readMembers (depth + 1) (before ++ '"' :: (key ++ '"' :: (after ++ ':' :: text))) =
      some ([(textOfUnits units, value)], rest) := by
  have hquote : ∀ text, skipSpace (before ++ '"' :: text) = '"' :: text :=
    fun _ => skipSpace_append hbefore
  have hcolon : skipSpace (after ++ ':' :: text) = ':' :: text := skipSpace_append hafter
  have hclose : skipSpace (blank ++ '\x7d' :: rest) = '\x7d' :: rest := skipSpace_append hblank
  rw [readMembers, hquote]
  simp only [Option.bind_eq_bind, Option.bind_some, readString_append hkey, hcolon, h, hclose]
  rfl

/-- A member in front of a comma is followed by others. -/
lemma readMembers_comma (hbefore : Blank before) (hkey : SpellsUnits key units)
    (hafter : Blank after) (h : readValue depth text = some (value, blank ++ ',' :: rest))
    (hblank : Blank blank) :
    readMembers (depth + 1) (before ++ '"' :: (key ++ '"' :: (after ++ ':' :: text))) =
      (readMembers depth rest).map fun read => ((textOfUnits units, value) :: read.1, read.2) := by
  have hquote : ∀ text, skipSpace (before ++ '"' :: text) = '"' :: text :=
    fun _ => skipSpace_append hbefore
  have hcolon : skipSpace (after ++ ':' :: text) = ':' :: text := skipSpace_append hafter
  have hcomma : skipSpace (blank ++ ',' :: rest) = ',' :: rest := skipSpace_append hblank
  rw [readMembers, hquote]
  simp only [Option.bind_eq_bind, Option.bind_some, readString_append hkey, hcolon, h, hcomma]
  cases readMembers depth rest <;> rfl

end Members

/-- The depth is enough to read any text of the grammar that has at most one character for each two
steps. -/
structure Complete (depth : Nat) : Prop where
  /-- Values are read. -/
  readValue_eq : ∀ {text rest : List Char} {value : Json}, Spells text value → EndsNumber rest →
    2 * text.length ≤ depth → readValue depth (text ++ rest) = some (value, rest)
  /-- Lists are read up to their closing bracket. -/
  readItems_eq : ∀ {text : List Char} {items : List Json}, SpellsItems text items →
    2 * text.length + 1 ≤ depth → ∀ rest, readItems depth (text ++ ']' :: rest) = some (items, rest)
  /-- Objects are read up to their closing brace. -/
  readMembers_eq : ∀ {text : List Char} {members : List (Option (List Char) × Json)},
    SpellsMembers text members → 2 * text.length + 1 ≤ depth → ∀ rest,
    readMembers depth (text ++ '\x7d' :: rest) = some (members, rest)

namespace Complete

/-- An element is read up to the blanks behind its value. -/
lemma exists_blank (h : Complete depth) (hvalue : SpellsElement text value)
    (hrest : EndsNumber rest) (hlength : 2 * text.length ≤ depth) :
    ∃ blank, Blank blank ∧ readValue depth (text ++ rest) = some (value, blank ++ rest) := by
  obtain @⟨before, text, after, value, hbefore, hvalue, hafter⟩ := hvalue
  simp only [List.length_append] at hlength
  refine ⟨after, hafter, ?_⟩
  rw [List.append_assoc, readValue_append hbefore, List.append_assoc]
  exact h.readValue_eq hvalue (endsNumber_blank_append hafter hrest) (by omega)

lemma readValue_succ (h : Complete depth) (hvalue : Spells text value) (hrest : EndsNumber rest)
    (hlength : 2 * text.length ≤ depth + 1) :
    readValue (depth + 1) (text ++ rest) = some (value, rest) := by
  cases hvalue with
  | nullWord => exact readWord_append "ull".toList .null rest
  | trueWord => exact readWord_append "rue".toList (.bool true) rest
  | falseWord => exact readWord_append "alse".toList (.bool false) rest
  | unsigned n =>
    obtain ⟨c, front, htext, hdigit⟩ := n.exists_cons
    rw [← readUnsigned_append n hrest, htext, List.cons_append, readValue_of_isDigit _ _ hdigit]
  | negative n =>
    rw [List.cons_append, readValue_negative, readUnsigned_append n hrest]
    rfl
  | string hunits =>
    rw [List.cons_append, List.append_assoc, readValue_string]
    exact congrArg _ (readString_append hunits rest)
  | emptyArray hblank =>
    rw [List.cons_append, List.append_assoc]
    exact readValue_emptyArray depth hblank
  | array hitems =>
    simp only [List.length_cons, List.length_append, List.length_nil] at hlength
    rw [List.cons_append, List.append_assoc, readValue_array _ (hitems.head_skipSpace_ne _)]
    exact congrArg _ (h.readItems_eq hitems (by omega) rest)
  | emptyObject hblank =>
    rw [List.cons_append, List.append_assoc]
    exact readValue_emptyObject depth hblank
  | object hmembers =>
    simp only [List.length_cons, List.length_append, List.length_nil] at hlength
    rw [List.cons_append, List.append_assoc, readValue_object _ (hmembers.head_skipSpace_ne _)]
    exact congrArg _ (h.readMembers_eq hmembers (by omega) rest)

lemma readItems_succ (h : Complete depth) (hitems : SpellsItems text items)
    (hlength : 2 * text.length ≤ depth) (rest : List Char) :
    readItems (depth + 1) (text ++ ']' :: rest) = some (items, rest) := by
  cases hitems with
  | one hitem =>
    obtain ⟨blank, hblank, hread⟩ :=
      h.exists_blank hitem (endsNumber_cons ']' (by decide) rest) hlength
    exact readItems_last hread hblank
  | @cons text others item items hitem hitems =>
    simp only [List.length_cons, List.length_append] at hlength
    obtain ⟨blank, hblank, hread⟩ :=
      h.exists_blank hitem (endsNumber_cons ',' (by decide) (others ++ ']' :: rest)) (by omega)
    rw [List.append_assoc, List.cons_append, readItems_comma hread hblank,
      h.readItems_eq hitems (by omega)]
    rfl

lemma readMembers_succ (h : Complete depth) (hmembers : SpellsMembers text members)
    (hlength : 2 * text.length ≤ depth) (rest : List Char) :
    readMembers (depth + 1) (text ++ '\x7d' :: rest) = some (members, rest) := by
  cases hmembers with
  | one hbefore hkey hafter hvalue =>
    simp only [List.length_cons, List.length_append] at hlength
    obtain ⟨blank, hblank, hread⟩ :=
      h.exists_blank hvalue (endsNumber_cons '\x7d' (by decide) rest) (by omega)
    simp only [List.append_assoc, List.cons_append]
    exact readMembers_last hbefore hkey hafter hread hblank
  | @cons before key after text others units value members hbefore hkey hafter hvalue hmembers =>
    simp only [List.length_cons, List.length_append] at hlength
    obtain ⟨blank, hblank, hread⟩ := h.exists_blank hvalue
      (endsNumber_cons ',' (by decide) (others ++ '\x7d' :: rest)) (by omega)
    simp only [List.append_assoc, List.cons_append]
    rw [readMembers_comma hbefore hkey hafter hread hblank, h.readMembers_eq hmembers (by omega)]
    rfl

end Complete

/-- A depth of two for each character is enough, and one more for a list without its bracket. -/
lemma complete (depth : Nat) : Complete depth := by
  induction depth with
  | zero =>
    refine ⟨fun hvalue _ hlength => ?_, fun _ hlength => ?_, fun _ hlength => ?_⟩
    · obtain ⟨c, front, rfl, -⟩ := hvalue.exists_cons
      rw [List.length_cons] at hlength
      omega
    · omega
    · omega
  | succ depth ih =>
    exact ⟨ih.readValue_succ, fun hitems hlength => ih.readItems_succ hitems (by omega),
      fun hmembers hlength => ih.readMembers_succ hmembers (by omega)⟩

/-! ## What is read is of the grammar -/

lemma eq_of_readWord {word : List Char} {v : Json} (h : readWord word value text = some (v, rest)) :
    text = word ++ rest ∧ v = value := by
  rw [readWord] at h
  split at h
  · next hword =>
    obtain ⟨rest', rfl⟩ := List.isPrefixOf_iff_prefix.1 hword
    obtain ⟨rfl, rfl⟩ := Prod.mk.inj (Option.some.inj h)
    exact ⟨by rw [List.drop_left], rfl⟩
  · exact absurd h (Option.some_ne_none _).symm

lemma exists_of_readString {string : Option (List Char)}
    (h : readString text = some (string, rest)) :
    ∃ front units, text = front ++ '"' :: rest ∧ SpellsUnits front units ∧
      string = textOfUnits units := by
  obtain ⟨⟨units, rest'⟩, hread, heq⟩ := Option.map_eq_some_iff.1 h
  obtain ⟨rfl, rfl⟩ := Prod.mk.inj heq
  obtain ⟨front, htext, hfront⟩ := exists_of_readUnits hread
  exact ⟨front, units, htext, hfront, rfl⟩

lemma exists_of_readNumber (h : readNumber text = some (value, rest)) :
    ∃ front, text = front ++ rest ∧ Spells front value := by
  rw [readNumber.eq_def] at h
  split at h
  · obtain ⟨⟨n, rest'⟩, hread, heq⟩ := Option.map_eq_some_iff.1 h
    obtain ⟨rfl, rfl⟩ := Prod.mk.inj heq
    obtain ⟨n, rfl, -⟩ := exists_of_readUnsigned hread
    exact ⟨_, rfl, .negative n⟩
  · obtain ⟨n, rfl, rfl⟩ := exists_of_readUnsigned h
    exact ⟨_, rfl, .unsigned n⟩

/-- What is read in this depth is a text of the grammar. -/
structure Sound (depth : Nat) : Prop where
  /-- Of values. -/
  exists_value : ∀ {text rest : List Char} {value : Json},
    readValue depth text = some (value, rest) →
    ∃ blank front, Blank blank ∧ text = blank ++ (front ++ rest) ∧ Spells front value
  /-- Of lists. -/
  exists_items : ∀ {text rest : List Char} {items : List Json},
    readItems depth text = some (items, rest) →
    ∃ front, text = front ++ ']' :: rest ∧ SpellsItems front items
  /-- Of objects. -/
  exists_members : ∀ {text rest : List Char} {members : List (Option (List Char) × Json)},
    readMembers depth text = some (members, rest) →
    ∃ front, text = front ++ '\x7d' :: rest ∧ SpellsMembers front members

namespace Sound

/-- With the blanks on both sides, a value is an element. -/
lemma exists_element (h : Sound depth) (hread : readValue depth text = some (value, rest)) :
    ∃ front, text = front ++ skipSpace rest ∧ SpellsElement front value := by
  obtain ⟨before, front, hbefore, rfl, hfront⟩ := h.exists_value hread
  obtain ⟨after, hafter, hrest⟩ := exists_blank_append rest
  refine ⟨_, ?_, .mk hbefore hfront hafter⟩
  rw [List.append_assoc, List.append_assoc, ← hrest]

lemma exists_value_succ (h : Sound depth)
    (hread : readValue (depth + 1) text = some (value, rest)) :
    ∃ blank front, Blank blank ∧ text = blank ++ (front ++ rest) ∧ Spells front value := by
  obtain ⟨blank, hblank, htext⟩ := exists_blank_append text
  suffices hfront : ∃ front, skipSpace text = front ++ rest ∧ Spells front value by
    obtain ⟨front, hskip, hfront⟩ := hfront
    exact ⟨blank, front, hblank, hskip ▸ htext, hfront⟩
  rw [readValue] at hread
  split at hread
  · next inner hopen =>
    obtain ⟨blank, hblank, hinner⟩ := exists_blank_append inner
    split at hread
    · next hclose =>
      obtain ⟨rfl, rfl⟩ := Prod.mk.inj (Option.some.inj hread)
      refine ⟨_, ?_, .emptyObject hblank⟩
      rw [hopen, hinner, hclose, List.cons_append, List.append_assoc]
      rfl
    · obtain ⟨⟨members, rest'⟩, hmembers, heq⟩ := Option.map_eq_some_iff.1 hread
      obtain ⟨rfl, rfl⟩ := Prod.mk.inj heq
      rw [readMembers_skipSpace] at hmembers
      obtain ⟨front, rfl, hfront⟩ := h.exists_members hmembers
      refine ⟨_, ?_, .object hfront⟩
      rw [hopen, List.cons_append, List.append_assoc]
      rfl
  · next inner hopen =>
    obtain ⟨blank, hblank, hinner⟩ := exists_blank_append inner
    split at hread
    · next hclose =>
      obtain ⟨rfl, rfl⟩ := Prod.mk.inj (Option.some.inj hread)
      refine ⟨_, ?_, .emptyArray hblank⟩
      rw [hopen, hinner, hclose, List.cons_append, List.append_assoc]
      rfl
    · obtain ⟨⟨items, rest'⟩, hitems, heq⟩ := Option.map_eq_some_iff.1 hread
      obtain ⟨rfl, rfl⟩ := Prod.mk.inj heq
      rw [readItems_skipSpace] at hitems
      obtain ⟨front, rfl, hfront⟩ := h.exists_items hitems
      refine ⟨_, ?_, .array hfront⟩
      rw [hopen, List.cons_append, List.append_assoc]
      rfl
  · next inner hopen =>
    obtain ⟨⟨string, rest'⟩, hstring, heq⟩ := Option.map_eq_some_iff.1 hread
    obtain ⟨rfl, rfl⟩ := Prod.mk.inj heq
    obtain ⟨front, units, rfl, hfront, rfl⟩ := exists_of_readString hstring
    refine ⟨_, ?_, .string hfront⟩
    rw [hopen, List.cons_append, List.append_assoc]
    rfl
  · next hopen =>
    obtain ⟨rfl, rfl⟩ := eq_of_readWord hread
    exact ⟨_, hopen, .nullWord⟩
  · next hopen =>
    obtain ⟨rfl, rfl⟩ := eq_of_readWord hread
    exact ⟨_, hopen, .trueWord⟩
  · next hopen =>
    obtain ⟨rfl, rfl⟩ := eq_of_readWord hread
    exact ⟨_, hopen, .falseWord⟩
  · exact exists_of_readNumber hread

lemma exists_items_succ (h : Sound depth)
    (hread : readItems (depth + 1) text = some (items, rest)) :
    ∃ front, text = front ++ ']' :: rest ∧ SpellsItems front items := by
  simp only [readItems, Option.bind_eq_bind, Option.bind_eq_some_iff, Prod.exists] at hread
  obtain ⟨item, behind, hitem, hread⟩ := hread
  obtain ⟨front, rfl, hfront⟩ := h.exists_element hitem
  split at hread
  · next hclose =>
    obtain ⟨rfl, rfl⟩ := Prod.mk.inj (Option.some.inj hread)
    exact ⟨front, by rw [hclose], .one hfront⟩
  · next hcomma =>
    simp only [Option.bind_eq_some_iff, Option.pure_def, Option.some.injEq, Prod.mk.injEq,
      Prod.exists] at hread
    obtain ⟨items, rest, hread, rfl, rfl⟩ := hread
    obtain ⟨others, rfl, hitems⟩ := h.exists_items hread
    refine ⟨_, ?_, .cons hfront hitems⟩
    rw [hcomma, List.append_assoc, List.cons_append]
  · exact absurd hread (Option.some_ne_none _).symm

lemma exists_members_succ (h : Sound depth)
    (hread : readMembers (depth + 1) text = some (members, rest)) :
    ∃ front, text = front ++ '\x7d' :: rest ∧ SpellsMembers front members := by
  obtain ⟨before, hbefore, htext⟩ := exists_blank_append text
  rw [readMembers] at hread
  split at hread
  · next inner hquote =>
    simp only [Option.bind_eq_bind, Option.bind_eq_some_iff, Prod.exists] at hread
    obtain ⟨string, behind, hstring, hread⟩ := hread
    obtain ⟨key, units, rfl, hkey, rfl⟩ := exists_of_readString hstring
    obtain ⟨after, hafter, hbehind⟩ := exists_blank_append behind
    split at hread
    · next told hcolon =>
      rw [hquote, hbehind, hcolon] at htext
      simp only [Option.bind_eq_some_iff, Prod.exists] at hread
      obtain ⟨value, behind, hvalue, hread⟩ := hread
      obtain ⟨front, rfl, hfront⟩ := h.exists_element hvalue
      split at hread
      · next hclose =>
        obtain ⟨rfl, rfl⟩ := Prod.mk.inj (Option.some.inj hread)
        refine ⟨_, ?_, .one hbefore hkey hafter hfront⟩
        rw [htext, hclose]
        simp only [List.append_assoc, List.cons_append]
      · next hcomma =>
        simp only [Option.bind_eq_some_iff, Option.pure_def, Option.some.injEq, Prod.mk.injEq,
          Prod.exists] at hread
        obtain ⟨members, rest, hread, rfl, rfl⟩ := hread
        obtain ⟨others, rfl, hmembers⟩ := h.exists_members hread
        refine ⟨_, ?_, .cons hbefore hkey hafter hfront hmembers⟩
        rw [htext, hcomma]
        simp only [List.append_assoc, List.cons_append]
      · exact absurd hread (Option.some_ne_none _).symm
    · exact absurd hread (Option.some_ne_none _).symm
  · exact absurd hread (Option.some_ne_none _).symm

end Sound

/-- What is read is a text of the grammar, however deep the reader goes. -/
lemma sound (depth : Nat) : Sound depth := by
  induction depth with
  | zero =>
    exact ⟨fun hread => absurd hread (Option.some_ne_none _).symm,
      fun hread => absurd hread (Option.some_ne_none _).symm,
      fun hread => absurd hread (Option.some_ne_none _).symm⟩
  | succ depth ih => exact ⟨ih.exists_value_succ, ih.exists_items_succ, ih.exists_members_succ⟩

/-! ## Documents -/

/-- A text is read as a value with nothing but blanks behind it exactly if it is this value with
blanks around it. -/
theorem spellsElement_iff :
    SpellsElement text value ↔ ∃ rest, read? text = some (value, rest) ∧ skipSpace rest = [] := by
  constructor
  · intro h
    obtain ⟨blank, hblank, hread⟩ :=
      (complete (2 * text.length + 2)).exists_blank h endsNumber_nil (by omega)
    rw [List.append_nil, List.append_nil] at hread
    have hskip := @skipSpace_append [] blank hblank
    rw [List.append_nil] at hskip
    exact ⟨blank, hread, hskip⟩
  · rintro ⟨rest, hread, hskip⟩
    obtain ⟨front, htext, hfront⟩ := (sound _).exists_element hread
    rw [hskip, List.append_nil] at htext
    exact htext ▸ hfront

/-- No text is an element in two ways. -/
theorem SpellsElement.unique {a b : Json} (ha : SpellsElement text a) (hb : SpellsElement text b) :
    a = b := by
  obtain ⟨rest, hread, -⟩ := spellsElement_iff.1 ha
  obtain ⟨rest', hread', -⟩ := spellsElement_iff.1 hb
  exact congrArg Prod.fst (Option.some.inj (hread.symm.trans hread'))

end CellIndex.Json
