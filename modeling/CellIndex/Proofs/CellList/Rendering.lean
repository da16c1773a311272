import CellIndex.Proofs.Cell.Token
import CellIndex.Proofs.CellList.Lines
import CellIndex.Proofs.Text.Basic

/-!
# Written lists

A list of entries may be written in many ways (`Document`): blanks may stand around cells, commas
and values, comments may follow, lines may end in a carriage return before the line feed, the last
line need not end at all, and lines without an entry may stand anywhere.  Whatever the choice, the
list is read back: a line gives its entry (`readLine_text`), and the lines are those that have been
written (`lines_text`).  So every written list says what its entries are (**`ofBytes_document`**).
-/

namespace CellIndex

/-- A cell as it is written in a list. -/
def CellFormat.write : CellFormat → CellId → List Char
  | .decimal, id => Nat.toDigits 10 id.toNat
  | .token, id => id.token

namespace CellList

/-! ## Ways to write a list -/

/-- Blanks that do not end a line. -/
structure Blanks where
  /-- The blanks. -/
  text : List Char
  /-- All of them are blank. -/
  isBlank_of_mem : ∀ c ∈ text, Text.isBlank c = true
  /-- None of them ends the line. -/
  not_mem : '\n' ∉ text

/-- No blanks at all. -/
def Blanks.none : Blanks := ⟨[], by simp, by simp⟩

/-- What follows after a `#` up to the end of the line. -/
structure Comment where
  /-- The comment without the `#`. -/
  text : List Char
  /-- Nothing in it ends the line. -/
  not_mem : '\n' ∉ text

/-- An entry with blanks around its cell and around its value.  Without a value, the blanks around
the value are not written. -/
structure WrittenEntry where
  /-- The entry. -/
  entry : CellEntry
  /-- The blanks before the cell. -/
  beforeCell : Blanks := .none
  /-- The blanks after the cell. -/
  afterCell : Blanks := .none
  /-- The blanks before the value. -/
  beforeValue : Blanks := .none
  /-- The blanks after the value. -/
  afterValue : Blanks := .none

/-- What a line holds besides a comment. -/
inductive Content
  /-- Nothing but blanks. -/
  | nothing (blanks : Blanks)
  /-- An entry. -/
  | entry (written : WrittenEntry)

/-- A line without its end. -/
structure WrittenLine where
  /-- The part before the comment. -/
  content : Content
  /-- The comment, if there is one. -/
  comment : Option Comment

/-- How a line ends. -/
inductive LineEnd
  /-- By a line feed. -/
  | lineFeed
  /-- By a carriage return and a line feed. -/
  | carriageReturn

/-- A way to write a list. -/
structure Document where
  /-- The lines that are ended. -/
  lines : List (WrittenLine × LineEnd)
  /-- A last line that is not ended, if there is one. -/
  last : Option WrittenLine

/-- A written value with the comma before it, if there is one. -/
def WrittenEntry.valueText (w : WrittenEntry) : List Char :=
  w.entry.value.elim [] fun value =>
    ',' :: (w.beforeValue.text ++ Nat.toDigits 10 value.toNat ++ w.afterValue.text)

/-- A written entry. -/
def WrittenEntry.text (format : CellFormat) (w : WrittenEntry) : List Char :=
  w.beforeCell.text ++ format.write w.entry.cell ++ w.afterCell.text ++ w.valueText

/-- The entry of a line. -/
def Content.entry? : Content → Option CellEntry
  | .nothing _ => none
  | .entry w => some w.entry

/-- The written content of a line. -/
def Content.text (format : CellFormat) : Content → List Char
  | .nothing blanks => blanks.text
  | .entry w => w.text format

/-- A written comment. -/
def commentText (comment : Option Comment) : List Char :=
  comment.elim [] fun comment => '#' :: comment.text

/-- A written line. -/
def WrittenLine.text (format : CellFormat) (line : WrittenLine) : List Char :=
  line.content.text format ++ commentText line.comment

/-- What stands at the end of a line before the line feed. -/
def LineEnd.text : LineEnd → List Char
  | .lineFeed => []
  | .carriageReturn => ['\r']

namespace Document

/-- The written list. -/
def text (format : CellFormat) (d : Document) : List Char :=
  d.lines.flatMap (fun line => line.1.text format ++ line.2.text ++ ['\n']) ++
    d.last.elim [] (WrittenLine.text format)

/-- The entries of the lines in their order. -/
def entries (d : Document) : List CellEntry :=
  (d.lines.map Prod.fst ++ d.last.toList).filterMap (·.content.entry?)

end Document

/-! ## Words -/

/-- A text that a list takes as it stands: neither blank nor comma nor comment is in it. -/
structure IsWord (text : List Char) : Prop where
  ne_nil : text ≠ []
  isBlank_eq : ∀ c ∈ text, Text.isBlank c = false
  comma_not_mem : ',' ∉ text
  hash_not_mem : '#' ∉ text

lemma isWord_toDigits (n : Nat) : IsWord (Nat.toDigits 10 n) := by
  have hdigit : ∀ c ∈ Nat.toDigits 10 n, 48 ≤ c.toNat ∧ c.toNat ≤ 57 := by
    intro c hc
    have h := Decimal.isDigit_of_mem_toDigits hc
    rw [Decimal.isDigit, Bool.and_eq_true, decide_eq_true_eq, decide_eq_true_eq] at h
    exact h
  refine ⟨Nat.toDigits_ne_nil, fun c hc => ?_, fun hc => ?_, fun hc => ?_⟩
  · have := hdigit c hc
    simp only [Text.isBlank, Text.blankRanges, List.any_cons, List.any_nil, Bool.or_false,
      Bool.or_eq_false_iff, Bool.and_eq_false_iff, decide_eq_false_iff_not]
    omega
  · exact absurd (hdigit _ hc) (by decide)
  · exact absurd (hdigit _ hc) (by decide)

lemma isWord_token (id : CellId) : IsWord id.token := by
  have hchars : ∀ d < 16, Text.isBlank (Hexadecimal.digit d) = false ∧
      Hexadecimal.digit d ≠ ',' ∧ Hexadecimal.digit d ≠ '#' := by decide
  have hmem : ∀ c ∈ id.token, Text.isBlank c = false ∧ c ≠ ',' ∧ c ≠ '#' := by
    intro c hc
    rcases CellId.mem_token hc with rfl | ⟨d, hd, rfl⟩
    · decide
    · exact hchars d hd
  exact ⟨CellId.token_ne_nil id, fun c hc => (hmem c hc).1, fun hc => (hmem _ hc).2.1 rfl,
    fun hc => (hmem _ hc).2.2 rfl⟩

lemma isWord_write (format : CellFormat) (id : CellId) : IsWord (format.write id) := by
  cases format with
  | decimal => exact isWord_toDigits id.toNat
  | token => exact isWord_token id

/-- A written cell is read back. -/
lemma read_write (format : CellFormat) (id : CellId) :
    format.read (format.write id) = .ok id := by
  cases format with
  | decimal =>
    have hlimit : id.toNat ≤ 2 ^ 64 - 1 := Nat.le_sub_one_of_lt id.toNat_lt
    rw [CellFormat.read, CellFormat.write, Decimal.readNat?_toDigits hlimit]
    exact congrArg Except.ok (CellId.ofNat_toNat id)
  | token =>
    rw [CellFormat.read, CellFormat.write, CellId.ofToken?_token]
    rfl

/-- A written value is read back. -/
lemma readValue_toDigits (value : UInt32) :
    readValue (Nat.toDigits 10 value.toNat) = .ok value := by
  have hlimit : value.toNat ≤ 2 ^ 32 - 1 := Nat.le_sub_one_of_lt value.toNat_lt
  rw [readValue, Decimal.readNat?_toDigits hlimit]
  exact congrArg Except.ok (UInt32.ofNat_toNat)

namespace IsWord

variable {text before after : List Char}

lemma isBlank_head (h : IsWord text) : ∀ c ∈ text.head?, Text.isBlank c = false :=
  fun c hc => h.isBlank_eq c (List.mem_of_mem_head? hc)

lemma isBlank_getLast (h : IsWord text) : ∀ c ∈ text.getLast?, Text.isBlank c = false :=
  fun c hc => h.isBlank_eq c (List.mem_of_mem_getLast? hc)

/-- A word is what is left when blanks around it are trimmed. -/
lemma trim_eq (h : IsWord text) (hbefore : ∀ c ∈ before, Text.isBlank c = true)
    (hafter : ∀ c ∈ after, Text.isBlank c = true) : Text.trim (before ++ text ++ after) = text :=
  Text.trim_append hbefore hafter h.isBlank_head h.isBlank_getLast

end IsWord

/-! ## Lines -/

section Lines

variable {format : CellFormat} {c : Char} {tail : List Char}

lemma Blanks.not_mem_of_isBlank_eq (blanks : Blanks) (h : Text.isBlank c = false) :
    c ∉ blanks.text :=
  fun hc => Bool.false_ne_true (h.symm.trans (blanks.isBlank_of_mem c hc))

/-- The content of a line holds nothing but blanks, words and a comma. -/
lemma Content.not_mem_text (content : Content) (hblanks : ∀ blanks : Blanks, c ∉ blanks.text)
    (hword : ∀ text, IsWord text → c ∉ text) (hcomma : c ≠ ',') : c ∉ content.text format := by
  cases content with
  | nothing blanks => exact hblanks blanks
  | entry w =>
    have hvalue : c ∉ w.valueText := by
      rw [WrittenEntry.valueText]
      cases w.entry.value with
      | none => exact List.not_mem_nil
      | some value =>
        simp [hcomma, hblanks, hword _ (isWord_toDigits value.toNat)]
    simp [Content.text, WrittenEntry.text, hblanks, hvalue,
      hword _ (isWord_write format w.entry.cell)]

lemma Content.hash_not_mem_text (content : Content) : '#' ∉ content.text format :=
  content.not_mem_text (fun blanks => blanks.not_mem_of_isBlank_eq (by decide))
    (fun _ hword => hword.hash_not_mem) (by decide)

/-- No line is ended by its own text. -/
lemma WrittenLine.not_mem_text (line : WrittenLine) : '\n' ∉ line.text format := by
  have hcontent : '\n' ∉ line.content.text format :=
    line.content.not_mem_text Blanks.not_mem
      (fun _ hword hc => absurd (hword.isBlank_eq _ hc) (by decide)) (by decide)
  have hcomment : '\n' ∉ commentText line.comment := by
    rw [commentText]
    cases line.comment with
    | none => exact List.not_mem_nil
    | some comment => simp [comment.not_mem]
  rw [WrittenLine.text, List.mem_append, not_or]
  exact ⟨hcontent, hcomment⟩

/-- A comment is cut off with what follows it. -/
lemma WrittenLine.exists_takeWhile (format : CellFormat) (line : WrittenLine)
    (htail : ∀ c ∈ tail, Text.isBlank c = true) :
    ∃ blank : List Char, (∀ c ∈ blank, Text.isBlank c = true) ∧
      (line.text format ++ tail).takeWhile (· ≠ '#') = line.content.text format ++ blank := by
  have hkept : ∀ c ∈ line.content.text format, decide (c ≠ '#') = true := fun c hc =>
    decide_eq_true fun heq => line.content.hash_not_mem_text (heq ▸ hc)
  rw [WrittenLine.text, commentText, List.append_assoc, List.takeWhile_append_of_pos hkept]
  cases line.comment with
  | none =>
    refine ⟨tail, htail, congrArg _ ?_⟩
    refine List.takeWhile_eq_self_iff.2 fun c hc => decide_eq_true fun heq => ?_
    exact absurd (htail c hc) (by rw [heq]; decide)
  | some comment => exact ⟨[], by simp, congrArg _ (by simp)⟩

/-- A word is the cell of an entry without a value. -/
lemma readEntry_write (format : CellFormat) (id : CellId) :
    readEntry format (format.write id) = .ok ⟨id, none⟩ := by
  have hnone : (format.write id).dropWhile (· ≠ ',') = [] := by
    rw [List.dropWhile_eq_nil_iff]
    exact fun c hc => decide_eq_true fun heq => (isWord_write format id).comma_not_mem (heq ▸ hc)
  rw [readEntry, hnone]
  simp only [read_write]
  rfl

/-- The first comma stands between the cell and the value. -/
lemma readEntry_write_comma (format : CellFormat) (id : CellId) (value : UInt32)
    (after before : Blanks) :
    readEntry format (format.write id ++ after.text ++
        ',' :: (before.text ++ Nat.toDigits 10 value.toNat)) = .ok ⟨id, some value⟩ := by
  have hword := isWord_write format id
  have hcell : Text.trim (format.write id ++ after.text) = format.write id :=
    @IsWord.trim_eq _ [] _ hword (by simp) after.isBlank_of_mem
  have hvalue : Text.trim (before.text ++ Nat.toDigits 10 value.toNat) =
      Nat.toDigits 10 value.toNat := by
    have htrim := @IsWord.trim_eq _ _ [] (isWord_toDigits value.toNat) before.isBlank_of_mem
      (by simp)
    rwa [List.append_nil] at htrim
  have hkept : ∀ c ∈ format.write id ++ after.text, decide (c ≠ ',') = true := by
    refine fun c hc => decide_eq_true fun heq => ?_
    rcases List.mem_append.1 (heq ▸ hc) with hc | hc
    · exact hword.comma_not_mem hc
    · exact after.not_mem_of_isBlank_eq (by decide) hc
  have hdrop : (format.write id ++ after.text ++
      ',' :: (before.text ++ Nat.toDigits 10 value.toNat)).dropWhile (· ≠ ',') =
        ',' :: (before.text ++ Nat.toDigits 10 value.toNat) := by
    rw [List.dropWhile_append_of_pos hkept]
    rfl
  have htake : (format.write id ++ after.text ++
      ',' :: (before.text ++ Nat.toDigits 10 value.toNat)).takeWhile (· ≠ ',') =
        format.write id ++ after.text := by
    rw [List.takeWhile_append_of_pos hkept]
    simp
  rw [readEntry, hdrop]
  simp only [htake, hcell, hvalue, read_write, readValue_toDigits]
  rfl

/-- A written entry is read back. -/
lemma WrittenEntry.readEntry_text (format : CellFormat) (w : WrittenEntry)
    (htail : ∀ c ∈ tail, Text.isBlank c = true) :
    ∃ text ≠ [], Text.trim (w.text format ++ tail) = text ∧
      readEntry format text = .ok w.entry := by
  obtain ⟨⟨id, value⟩, beforeCell, afterCell, beforeValue, afterValue⟩ := w
  have hword := isWord_write format id
  cases value with
  | none =>
    refine ⟨_, hword.ne_nil, ?_, readEntry_write format id⟩
    have hafter : ∀ c ∈ afterCell.text ++ tail, Text.isBlank c = true := fun c hc =>
      (List.mem_append.1 hc).elim (afterCell.isBlank_of_mem c) (htail c)
    have htrim := hword.trim_eq beforeCell.isBlank_of_mem hafter
    simpa [WrittenEntry.text, WrittenEntry.valueText] using htrim
  | some value =>
    have hdigits := isWord_toDigits value.toNat
    refine ⟨_, by simp, ?_, readEntry_write_comma format id value afterCell beforeValue⟩
    have hafter : ∀ c ∈ afterValue.text ++ tail, Text.isBlank c = true := fun c hc =>
      (List.mem_append.1 hc).elim (afterValue.isBlank_of_mem c) (htail c)
    -- the text begins with the cell and ends with the value
    have htrim := @Text.trim_append _ _ (format.write id ++ afterCell.text ++
      ',' :: (beforeValue.text ++ Nat.toDigits 10 value.toNat)) beforeCell.isBlank_of_mem hafter
      (by
        rw [List.append_assoc, List.head?_append_of_ne_nil _ hword.ne_nil]
        exact hword.isBlank_head)
      (by
        rw [List.append_cons, ← List.append_assoc,
          List.getLast?_append_of_ne_nil _ hdigits.ne_nil]
        exact hdigits.isBlank_getLast)
    simpa [WrittenEntry.text, WrittenEntry.valueText] using htrim

/-- A written line is read back, also with a carriage return behind it. -/
lemma readLine_text (format : CellFormat) (line : WrittenLine)
    (htail : ∀ c ∈ tail, Text.isBlank c = true) :
    readLine format (line.text format ++ tail) = .ok line.content.entry? := by
  obtain ⟨blank, hblank, htake⟩ := line.exists_takeWhile format htail
  rw [readLine, htake]
  cases line.content with
  | nothing blanks =>
    have htrim := @Text.trim_append _ _ [] blanks.isBlank_of_mem hblank (by simp) (by simp)
    rw [List.append_nil] at htrim
    simp only [Content.text, htrim]
    rfl
  | entry w =>
    obtain ⟨text, hne, htrim, hread⟩ := w.readEntry_text format hblank
    simp only [Content.text, htrim, hread, List.isEmpty_eq_false_iff.2 hne]
    rfl

end Lines

/-! ## Lists -/

section Lists

variable {format : CellFormat}

lemma LineEnd.isBlank_of_mem (e : LineEnd) : ∀ c ∈ e.text, Text.isBlank c = true := by
  cases e with
  | lineFeed => exact fun c hc => absurd hc List.not_mem_nil
  | carriageReturn => exact List.forall_mem_singleton.2 (by decide)

lemma LineEnd.not_mem_text (e : LineEnd) : '\n' ∉ e.text := by
  cases e <;> decide

/-- A line is read from its bytes, whatever its number. -/
lemma readText_utf8 (number : Nat) (line : WrittenLine) {tail : List Char}
    (htail : ∀ c ∈ tail, Text.isBlank c = true) :
    readText format number (Text.utf8 (line.text format ++ tail)) =
      .ok line.content.entry?.toList := by
  rw [readText, textOf_utf8]
  simp only [readLine_text format line htail]

/-- The bytes of the lines that are ended. -/
def Document.endedBytes (format : CellFormat) (d : Document) : List Bytes :=
  d.lines.map fun line => Text.utf8 (line.1.text format ++ line.2.text)

/-- The lines of a written list are those that have been written. -/
lemma Document.utf8_text (format : CellFormat) (d : Document) :
    Text.utf8 (d.text format) = (d.endedBytes format).flatMap (· ++ [lineFeed]) ++
      Text.utf8 (d.last.elim [] (WrittenLine.text format)) := by
  rw [Document.text, Text.utf8_append, Document.endedBytes, List.flatMap_map]
  congr 1
  rw [Text.utf8, List.flatMap_assoc]
  refine List.flatMap_congr fun line _ => ?_
  rw [List.flatMap_append]
  rfl

lemma Document.lineFeed_not_mem (format : CellFormat) (d : Document) :
    ∀ text ∈ d.endedBytes format, lineFeed ∉ text := by
  intro text htext
  obtain ⟨line, -, rfl⟩ := List.mem_map.1 htext
  refine Text.lineFeed_not_mem_utf8 ?_
  rw [List.mem_append, not_or]
  exact ⟨line.1.not_mem_text, line.2.not_mem_text⟩

/-- Ended lines are read back, whatever the number of the first of them. -/
lemma readLines_ended (number : Nat) (ended : List (WrittenLine × LineEnd)) :
    readLines format true number ((ended.map fun line =>
        Text.utf8 (line.1.text format ++ line.2.text)).map (⟨·, true⟩)) =
      .ok (ended.filterMap (·.1.content.entry?)) := by
  induction ended generalizing number with
  | nil => rfl
  | cons line ended ih =>
    rw [List.map_cons, List.map_cons, readLines_cons, readText_utf8 _ _ line.2.isBlank_of_mem, ih,
      List.filterMap_cons]
    cases line.1.content.entry? <;> rfl

/-- A last line is read back, even if it holds nothing and hence is no line. -/
lemma readLines_last (number : Nat) (last : Option WrittenLine) :
    readLines format true number (lines (Text.utf8 (last.elim [] (WrittenLine.text format)))) =
      .ok (last.toList.filterMap (·.content.entry?)) := by
  cases last with
  | none => rfl
  | some line =>
    have hread := @readText_utf8 format number line [] (by simp)
    rw [List.append_nil] at hread
    by_cases hempty : Text.utf8 (line.text format) = []
    · have hnothing : readText format number [] = .ok [] := by
        rw [readText, show textOf [] = some [] from textOf_utf8 []]
        rfl
      rw [hempty, hnothing] at hread
      rw [Option.elim_some, hempty]
      cases hentry : line.content.entry? with
      | none => simp [hentry, lines, readLines]
      | some entry => simp [hentry] at hread
    · rw [Option.elim_some, lines_of_not_mem (Text.lineFeed_not_mem_utf8 line.not_mem_text) hempty,
        readLines_cons, hread]
      simp only [Option.toList_some, List.filterMap_cons, List.filterMap_nil]
      cases line.content.entry? <;> rfl

/-- **Every way to write a list is read back.**  The bytes of a written list say what its entries
are, in their order, and every list of entries can be written. -/
theorem ofBytes_document (format : CellFormat) :
    (∀ d : Document, ofBytes format (Text.utf8 (d.text format)) = .ok d.entries) ∧
      ∀ entries : List CellEntry, ∃ d : Document, d.entries = entries := by
  refine ⟨fun d => ?_, fun entries => ?_⟩
  · have hlines := lines_flatMap_append (d.lineFeed_not_mem format)
      (Text.utf8 (d.last.elim [] (WrittenLine.text format)))
    rw [ofBytes_eq, d.utf8_text, hlines, readLines_append, Document.endedBytes, readLines_ended,
      readLines_last, Document.entries, List.filterMap_append, List.filterMap_map]
    rfl
  · refine ⟨⟨entries.map fun entry => (⟨.entry { entry }, none⟩, .lineFeed), none⟩, ?_⟩
    simp [Document.entries, Content.entry?, Function.comp_def]

end Lists

end CellList

end CellIndex
