import CellIndex.CellList
import CellIndex.Proofs.Sequence

/-!
# Cell lists line by line

A text that is empty or ends in a line feed is a sequence of whole lines (`exists_texts`), and then
the lines of what follows do not depend on it (`lines_flatMap_append`).  Lines are read one after
the other, each on its own (`readLines_cons`), and their numbers only stand in the faults
(`readLines_add`).  So a list can be cut behind any line feed: **`ofBytes_compositional`**.
-/

namespace CellIndex.CellList

open Sequence

variable {format : CellFormat} {number : Nat} {front back text : Bytes}
  {texts : List Bytes} {e : Error}

/-! ## Cutting into lines -/

lemma lines_cons (byte : UInt8) (bytes : Bytes) :
    lines (byte :: bytes) = consByte byte (lines bytes) := rfl

/-- The bytes up to a line feed are a line. -/
lemma lines_append_lineFeed (htext : lineFeed ∉ text) (rest : Bytes) :
    lines (text ++ lineFeed :: rest) = ⟨text, true⟩ :: lines rest := by
  induction text with
  | nil => rfl
  | cons byte text ih =>
    rw [List.mem_cons, not_or] at htext
    rw [List.cons_append, lines_cons, ih htext.2, consByte, if_neg (Ne.symm htext.1)]

/-- Bytes without a line feed are a last line, unless there are none. -/
lemma lines_of_not_mem (htext : lineFeed ∉ text) (hne : text ≠ []) :
    lines text = [⟨text, false⟩] := by
  induction text with
  | nil => exact absurd rfl hne
  | cons byte text ih =>
    rw [List.mem_cons, not_or] at htext
    cases text with
    | nil => rw [lines_cons, consByte.eq_def, if_neg (Ne.symm htext.1)]; rfl
    | cons next text =>
      rw [lines_cons, ih htext.2 (List.cons_ne_nil _ _), consByte, if_neg (Ne.symm htext.1)]

/-- Texts without line feeds, each ended by one, are the lines before those of the rest. -/
lemma lines_flatMap_append (htexts : ∀ text ∈ texts, lineFeed ∉ text) (rest : Bytes) :
    lines (texts.flatMap (· ++ [lineFeed]) ++ rest) = texts.map (⟨·, true⟩) ++ lines rest := by
  induction texts with
  | nil => rfl
  | cons text texts ih =>
    obtain ⟨htext, htexts⟩ := List.forall_mem_cons.1 htexts
    rw [List.flatMap_cons, List.append_assoc, List.append_assoc, List.singleton_append,
      lines_append_lineFeed htext, ih htexts, List.map_cons, List.cons_append]

/-- What is empty or ends in a line feed consists of texts that are ended by one each. -/
lemma exists_texts (h : front = [] ∨ front.getLast? = some lineFeed) :
    ∃ texts : List Bytes, (∀ text ∈ texts, lineFeed ∉ text) ∧
      front = texts.flatMap (· ++ [lineFeed]) := by
  induction front with
  | nil => exact ⟨[], by simp, rfl⟩
  | cons byte rest ih =>
    have hlast : (byte :: rest).getLast? = some lineFeed := h.resolve_left (List.cons_ne_nil _ _)
    rw [List.getLast?_cons] at hlast
    cases rest with
    | nil =>
      obtain rfl : byte = lineFeed := by simpa using hlast
      exact ⟨[[]], by simp, rfl⟩
    | cons next rest =>
      obtain ⟨texts, htexts, hrest⟩ := ih (.inr (by simpa [List.getLast?_cons] using hlast))
      -- a line feed begins a line of its own, and any other byte joins the first line
      by_cases hbyte : byte = lineFeed
      · refine ⟨[] :: texts, List.forall_mem_cons.2 ⟨List.not_mem_nil, htexts⟩, ?_⟩
        rw [hbyte, hrest]
        rfl
      · cases texts with
        | nil => exact absurd hrest (List.cons_ne_nil _ _)
        | cons text texts =>
          obtain ⟨htext, htexts⟩ := List.forall_mem_cons.1 htexts
          refine ⟨(byte :: text) :: texts, List.forall_mem_cons.2 ⟨?_, htexts⟩, ?_⟩
          · simp [Ne.symm hbyte, htext]
          · rw [hrest]
            rfl

/-- So many lines as line feeds. -/
lemma count_lineFeed (htexts : ∀ text ∈ texts, lineFeed ∉ text) :
    (texts.flatMap (· ++ [lineFeed])).count lineFeed = texts.length := by
  induction texts with
  | nil => rfl
  | cons text texts ih =>
    obtain ⟨htext, htexts⟩ := List.forall_mem_cons.1 htexts
    rw [List.flatMap_cons, List.count_append, List.count_append, ih htexts,
      List.count_eq_zero_of_not_mem htext, List.count_singleton_self, List.length_cons]
    omega

/-! ## Reading lines -/

/-- Reads the text of a line with a number. -/
def readText (format : CellFormat) (number : Nat) (text : Bytes) :
    Except Error (List CellEntry) :=
  match textOf text with
  | none => .error .io
  | some text =>
    match readLine format text with
    | .error fault => .error (.invalidInput (.line number fault))
    | .ok entry => .ok entry.toList

/-- Lines are read one after the other. -/
lemma readLines_cons (format : CellFormat) (number : Nat) (line : Line) (rest : List Line) :
    readLines format true number (line :: rest) = (do
      let entries ← readText format number line.bytes
      let others ← readLines format true (number + 1) rest
      return entries ++ others) := by
  rw [readLines, Bool.not_true, Bool.and_false, if_neg Bool.false_ne_true, readText]
  cases textOf line.bytes with
  | none => rfl
  | some text =>
    cases hline : readLine format text with
    | error fault => simp only [hline]; rfl
    | ok entry => simp only [hline]; rfl

/-- The lines of a first part are read first. -/
lemma readLines_append (format : CellFormat) (number : Nat) (before rest : List Line) :
    readLines format true number (before ++ rest) = (do
      let entries ← readLines format true number before
      let others ← readLines format true (number + before.length) rest
      return entries ++ others) := by
  induction before generalizing number with
  | nil => exact (bind_pure _).symm
  | cons line before ih =>
    have hnumber : number + 1 + before.length = number + (line :: before).length := by
      rw [List.length_cons]
      omega
    rw [List.cons_append, readLines_cons, readLines_cons, ih, hnumber]
    simp only [bind_assoc, pure_bind, List.append_assoc]

/-- Reading fails at a line that is no text, or with a fault of one of the lines. -/
lemma eq_io_or_line_of_readLines {rest : List Line}
    (h : readLines format true number rest = .error e) :
    e = .io ∨ ∃ n fault, e = .invalidInput (.line n fault) ∧ number ≤ n ∧
      n < number + rest.length := by
  induction rest generalizing number with
  | nil => cases h
  | cons line rest ih =>
    rw [readLines_cons] at h
    cases hline : readText format number line.bytes with
    | error e' =>
      rw [hline] at h
      obtain rfl : e' = e := Except.error.inj h
      rw [readText] at hline
      split at hline
      · exact .inl (Except.error.inj hline).symm
      · split at hline
        · next fault _ =>
          refine .inr ⟨number, fault, (Except.error.inj hline).symm, Nat.le_refl _, ?_⟩
          rw [List.length_cons]
          omega
        · cases hline
    | ok entries =>
      cases hrest : readLines format true (number + 1) rest with
      | error e' =>
        rw [hline, hrest] at h
        obtain rfl : e' = e := Except.error.inj h
        refine (ih hrest).imp_right ?_
        rintro ⟨n, fault, heq, hle, hlt⟩
        refine ⟨n, fault, heq, by omega, ?_⟩
        rw [List.length_cons]
        omega
      | ok others =>
        rw [hline, hrest] at h
        cases h

/-! ## Line numbers -/

/-- A fault of a line, so many lines further down. -/
def lowered (distance : Nat) : Error → Error
  | .invalidInput (.line number fault) => .invalidInput (.line (number + distance) fault)
  | e => e

lemma readText_add (format : CellFormat) (number distance : Nat) (text : Bytes) :
    readText format (number + distance) text =
      (readText format number text).mapError (lowered distance) := by
  rw [readText, readText]
  cases textOf text with
  | none => rfl
  | some text =>
    cases hline : readLine format text with
    | error fault => simp only [hline]; rfl
    | ok entry => simp only [hline]; rfl

/-- The number of the first line only stands in the faults. -/
lemma readLines_add (format : CellFormat) (number distance : Nat) (rest : List Line) :
    readLines format true (number + distance) rest =
      (readLines format true number rest).mapError (lowered distance) := by
  induction rest generalizing number with
  | nil => rfl
  | cons line rest ih =>
    rw [readLines_cons, readLines_cons, readText_add, Nat.add_right_comm, ih]
    cases readText format number line.bytes with
    | error e => rfl
    | ok entries => cases readLines format true (number + 1) rest <;> rfl

/-- The words for the fault of a line begin with its number. -/
lemma message_line (number : Nat) (fault : InputFault) :
    (InputFault.line number fault).message =
      "line " ++ toString number ++ ": " ++ ("invalid input: " ++ fault.message) := by
  have hjoin : ": " ++ "invalid input: " = ": invalid input: " := by decide
  rw [← String.append_assoc, @String.append_assoc _ ": ", hjoin]
  rfl

/-! ## Cutting a list in two -/

lemma ofBytes_eq (format : CellFormat) (bytes : Bytes) :
    ofBytes format bytes = readLines format true 1 (lines bytes) := rfl

/-- A list that is cut behind a line feed is read part by part. -/
lemma ofBytes_append (format : CellFormat) (h : front = [] ∨ front.getLast? = some lineFeed)
    (back : Bytes) :
    ofBytes format (front ++ back) = (do
      let entries ← ofBytes format front
      let others ← (ofBytes format back).mapError (lowered (front.count lineFeed))
      return entries ++ others) := by
  obtain ⟨texts, htexts, rfl⟩ := exists_texts h
  have hfront := lines_flatMap_append htexts []
  rw [List.append_nil, show lines [] = [] from rfl, List.append_nil] at hfront
  rw [ofBytes_eq, ofBytes_eq, ofBytes_eq, lines_flatMap_append htexts, readLines_append, hfront,
    List.length_map, count_lineFeed htexts, readLines_add]

/-- **Reading a list is compositional.**  A list whose first part is empty or ends in a line feed is
read as this part and the rest are.

* If both can be read, their entries follow each other.
* A fault of the rest is a fault of the list, and if it is that of a line, the lines of the first
  part are counted before it, in the error as in its words.
* A fault of the first part is a fault of the list, whatever the rest holds.

No other error occurs than that of a line that is no text, and the fault of a line of the list. -/
theorem ofBytes_compositional (format : CellFormat)
    (h : front = [] ∨ front.getLast? = some lineFeed) (back : Bytes) :
    (∀ entries others, ofBytes format front = .ok entries → ofBytes format back = .ok others →
      ofBytes format (front ++ back) = .ok (entries ++ others)) ∧
    (∀ entries number fault, ofBytes format front = .ok entries →
      ofBytes format back = .error (.invalidInput (.line number fault)) →
      ofBytes format (front ++ back) =
        .error (.invalidInput (.line (number + front.count lineFeed) fault)) ∧
      ∃ words : String, (InputFault.line number fault).message = s!"line {number}: {words}" ∧
        (InputFault.line (number + front.count lineFeed) fault).message =
          s!"line {number + front.count lineFeed}: {words}") ∧
    (∀ entries, ofBytes format front = .ok entries → ofBytes format back = .error .io →
      ofBytes format (front ++ back) = .error .io) ∧
    (∀ e, ofBytes format front = .error e → ofBytes format (front ++ back) = .error e) ∧
    ∀ e, ofBytes format back = .error e →
      e = .io ∨ ∃ number fault, e = .invalidInput (.line number fault) ∧ 1 ≤ number ∧
        number ≤ (lines back).length := by
  have happend := ofBytes_append format h back
  refine ⟨fun entries others hfront hback => ?_, fun entries number fault hfront hback => ⟨?_, ?_⟩,
    fun entries hfront hback => ?_, fun e hfront => ?_, fun e hback => ?_⟩
  · rw [happend, hfront, hback]
    rfl
  · rw [happend, hfront, hback]
    rfl
  · exact ⟨"invalid input: " ++ fault.message, message_line _ _, message_line _ _⟩
  · rw [happend, hfront, hback]
    rfl
  · rw [happend, hfront]
    rfl
  · rw [ofBytes_eq] at hback
    refine (eq_io_or_line_of_readLines hback).imp_right ?_
    rintro ⟨number, fault, heq, hle, hlt⟩
    exact ⟨number, fault, heq, hle, by omega⟩

/-- A first part with an entry and a comment puts the faults of the rest two lines further down.  A
byte that is no text in the rest is not named, and a fault of the first part hides it. -/
theorem ofBytes_compositional_comment :
    ("1\n# x\n".toUTF8.toList = [] ∨ "1\n# x\n".toUTF8.toList.getLast? = some lineFeed) ∧
      ofBytes .decimal "1\n# x\n".toUTF8.toList = .ok [⟨.ofNat 1, none⟩] ∧
      ofBytes .decimal ("1\n# x\n".toUTF8.toList ++ "7,9".toUTF8.toList) =
        .ok [⟨.ofNat 1, none⟩, ⟨.ofNat 7, some 9⟩] ∧
      ofBytes .decimal ("1\n# x\n".toUTF8.toList ++ "7,9\nx\n".toUTF8.toList) =
        .error (.invalidInput (.line 4 (.cellId ['x']))) ∧
      ofBytes .decimal ("1\n# x\n".toUTF8.toList ++ [0xFF]) = .error .io ∧
      ofBytes .decimal ("x\n".toUTF8.toList ++ [0xFF]) =
        .error (.invalidInput (.line 1 (.cellId ['x']))) := by
  have hends : "1\n# x\n".toUTF8.toList = [] ∨
      "1\n# x\n".toUTF8.toList.getLast? = some lineFeed := .inr (by decide +kernel)
  have hwrong : "x\n".toUTF8.toList = [] ∨ "x\n".toUTF8.toList.getLast? = some lineFeed :=
    .inr (by decide +kernel)
  have hread : ofBytes .decimal "1\n# x\n".toUTF8.toList = .ok [⟨.ofNat 1, none⟩] := by
    decide +kernel
  obtain ⟨hok, -⟩ := ofBytes_compositional .decimal hends "7,9".toUTF8.toList
  obtain ⟨-, hline, -⟩ := ofBytes_compositional .decimal hends "7,9\nx\n".toUTF8.toList
  obtain ⟨-, -, hio, -⟩ := ofBytes_compositional .decimal hends [0xFF]
  obtain ⟨-, -, -, hfirst, -⟩ := ofBytes_compositional .decimal hwrong [0xFF]
  refine ⟨hends, hread, hok _ _ hread (by decide +kernel), ?_, hio _ hread (by decide +kernel),
    hfirst _ (by decide +kernel)⟩
  obtain ⟨hfault, -⟩ := hline _ 2 (.cellId ['x']) hread (by decide +kernel)
  rw [hfault]
  decide +kernel

end CellIndex.CellList
