import CellIndex.Proofs.Cell.Path
import CellIndex.Proofs.Cell.Spelling
import CellIndex.Proofs.Command.Create
import CellIndex.Proofs.Text.Basic

/-!
# What a dump tells

A written range is a row of texts, of which each ends where a character comes that is not in it: a
token at a blank, the digits of a value at the end of the line.  So a line tells its range and what
follows it (`text_append_inj`), and a dump tells the ranges of its file one after the other.
**`paths_faithful`** puts this beside the laws of the paths of cells.
-/

namespace CellIndex

/-- Texts that are cut at the first separator are the same before and behind it. -/
lemma append_separator_inj {α : Type} {c : α} {a b r s : List α} (ha : c ∉ a) (hb : c ∉ b) :
    a ++ c :: r = b ++ c :: s ↔ a = b ∧ r = s := by
  constructor
  · intro h
    rcases List.append_eq_append_iff.1 h with ⟨d, rfl, hd⟩ | ⟨d, rfl, hd⟩
    · cases d with
      | nil => exact ⟨(List.append_nil a).symm, (List.cons.inj hd).2⟩
      | cons d ds =>
        obtain ⟨rfl, -⟩ := List.cons.inj hd
        exact absurd (List.mem_append_right a List.mem_cons_self) hb
    · cases d with
      | nil => exact ⟨List.append_nil b, (List.cons.inj hd).2.symm⟩
      | cons d ds =>
        obtain ⟨rfl, -⟩ := List.cons.inj hd
        exact absurd (List.mem_append_right b List.mem_cons_self) ha
  · rintro ⟨rfl, rfl⟩
    rfl

/-! ## Written ranges -/

namespace CellRange

variable {a b : CellId} {x y : CellRange} {r s : List Char}

lemma blank_not_mem_token (id : CellId) : ' ' ∉ id.token := by
  have hdigit : ∀ d < 16, ' ' ≠ Hexadecimal.digit d := by decide
  intro h
  rcases CellId.mem_token h with hX | ⟨d, hd, hc⟩
  · exact absurd hX (by decide)
  · exact hdigit d hd hc

/-- A bound is known from its token, which ends at the first blank. -/
lemma boundText_append_inj : boundText a ++ r = boundText b ++ s ↔ a = b ∧ r = s := by
  constructor
  · intro h
    have htoken : a.token ++ ' ' :: ('(' :: a.path ++ [')'] ++ r) =
        b.token ++ ' ' :: ('(' :: b.path ++ [')'] ++ s) := by
      simpa [boundText] using h
    obtain rfl := CellId.token_injective
      ((append_separator_inj (blank_not_mem_token a) (blank_not_mem_token b)).1 htoken).1
    exact ⟨rfl, List.append_cancel_left h⟩
  · rintro ⟨rfl, rfl⟩
    rfl

/-- The value of a range is known from its digits, which the end of the line ends. -/
lemma valueText_append_inj {v w : UInt32} :
    Nat.toDigits 10 v.toNat ++ '\n' :: r = Nat.toDigits 10 w.toNat ++ '\n' :: s ↔
      v = w ∧ r = s := by
  have hdigits : ∀ n, '\n' ∉ Nat.toDigits 10 n := fun n h =>
    absurd (Decimal.isDigit_of_mem_toDigits h) (by decide)
  rw [append_separator_inj (hdigits _) (hdigits _)]
  refine and_congr_left fun _ => ⟨fun h => ?_, fun h => h ▸ rfl⟩
  have hvalue := congrArg Decimal.value h
  rw [Decimal.value_toDigits, Decimal.value_toDigits] at hvalue
  exact UInt32.toNat_inj.1 hvalue

/-- The line of a range is known from its bounds, its value, and where it ends. -/
lemma text_append_inj : x.text ++ '\n' :: r = y.text ++ '\n' :: s ↔ x = y ∧ r = s := by
  constructor
  · intro h
    obtain ⟨start, stop, value⟩ := x
    obtain ⟨start', stop', value'⟩ := y
    simp only [text, List.cons_append, List.append_assoc, List.cons.injEq, true_and,
      boundText_append_inj, List.append_cancel_left_eq] at h
    obtain ⟨rfl, rfl, h⟩ := h
    -- behind the bounds comes the end of the line, or the blank before a value
    cases value with
    | none =>
      cases value' with
      | none => exact ⟨rfl, (List.cons.inj h).2⟩
      | some w => exact absurd (List.cons.inj h).1 (by decide)
    | some v =>
      cases value' with
      | none => exact absurd (List.cons.inj h).1 (by decide)
      | some w =>
        simp only [List.append_assoc, List.append_cancel_left_eq, valueText_append_inj] at h
        obtain ⟨rfl, rfl⟩ := h
        exact ⟨rfl, rfl⟩
  · rintro ⟨rfl, rfl⟩
    rfl

lemma describe_injective : Function.Injective describe := by
  intro x y h
  have htext : x.text = y.text := String.ofList_injective h
  exact (text_append_inj.1 (congrArg (· ++ ['\n']) htext)).1

end CellRange

/-! ## Dumps -/

namespace Command

variable {ranges ranges' : List CellRange} {items : List (Except Error CellRange)}
  {count count' : Nat}

/-- A dump that does not fail has met no error. -/
lemma exists_of_dumpRanges (h : (dumpRanges count items).failure = none) :
    ∃ ranges : List CellRange, items = ranges.map .ok := by
  induction items generalizing count with
  | nil => exact ⟨[], rfl⟩
  | cons item items ih =>
    cases item with
    | error e => exact absurd h (Option.some_ne_none _)
    | ok range =>
      obtain ⟨ranges, rfl⟩ := @ih (count + 1) h
      exact ⟨range :: ranges, rfl⟩

lemma toList_dumpRanges_nil (count : Nat) : (dumpRanges count []).output.toList =
    Nat.toDigits 10 count ++ " ranges\n".toList := by
  simp [dumpRanges, line, toString, Nat.repr]

lemma toList_dumpRanges_cons (count : Nat) (range : CellRange)
    (items : List (Except Error CellRange)) : (dumpRanges count (.ok range :: items)).output.toList =
      range.text ++ '\n' :: (dumpRanges (count + 1) items).output.toList := by
  simp [dumpRanges, line, CellRange.describe]

/-- The number at the end of a dump is no range. -/
lemma dumpRanges_nil_ne_cons (count count' : Nat) (range : CellRange)
    (items : List (Except Error CellRange)) :
    (dumpRanges count []).output.toList ≠ (dumpRanges count' (.ok range :: items)).output.toList := by
  rw [toList_dumpRanges_nil, toList_dumpRanges_cons]
  intro h
  cases hdigits : Nat.toDigits 10 count with
  | nil => exact Nat.toDigits_ne_nil hdigits
  | cons c rest =>
    rw [hdigits] at h
    have hc : c = '[' := (List.cons.inj h).1
    have hdigit : c ∈ Nat.toDigits 10 count := hdigits ▸ List.mem_cons_self
    rw [hc] at hdigit
    exact absurd (Decimal.isDigit_of_mem_toDigits hdigit) (by decide)

/-- Two lists of ranges are not shown alike, wherever their counting begins. -/
lemma eq_of_dumpRanges (h : (dumpRanges count (ranges.map .ok)).output.toList =
    (dumpRanges count' (ranges'.map .ok)).output.toList) : ranges = ranges' := by
  induction ranges generalizing ranges' count count' with
  | nil =>
    cases ranges' with
    | nil => rfl
    | cons range ranges' => exact absurd h (dumpRanges_nil_ne_cons _ _ _ _)
  | cons range ranges ih =>
    cases ranges' with
    | nil => exact absurd h.symm (dumpRanges_nil_ne_cons _ _ _ _)
    | cons range' ranges' =>
      simp only [List.map_cons, toList_dumpRanges_cons, CellRange.text_append_inj] at h
      rw [h.1, ih h.2]

/-- A dump that does not fail comes from the ranges of a file that has been opened. -/
lemma exists_of_dump {folder : Folder} {file : String} (h : (dump folder file).failure = none) :
    ∃ (r : RangeFile) (ranges : List CellRange), openFile folder file = .ok r ∧
      r.ranges = ranges.map .ok ∧ dump folder file = dumpRanges 0 (ranges.map .ok) := by
  rw [dump] at h ⊢
  cases hopen : openFile folder file with
  | error e =>
    rw [hopen] at h
    exact absurd h (Option.some_ne_none _)
  | ok r =>
    rw [hopen] at h
    obtain ⟨ranges, hranges⟩ := exists_of_dumpRanges h
    exact ⟨r, ranges, rfl, hranges, by rw [← hranges]⟩

end Command

open Command

/-- **Written paths are faithful.**

* No two ids are described alike, cells or not.
* The path of a cell is continued by the paths of exactly the cells that it covers: itself and its
  descendants.
* No two ranges are described alike, so two files that are dumped alike and without an error hold
  the same ranges. -/
theorem paths_faithful :
    Function.Injective CellId.describe ∧
    (∀ a b : CellId, a.Valid → b.Valid → (a.describe.toList <+: b.describe.toList ↔
      a.level ≤ b.level ∧ b.ancestor a.level = a)) ∧
    Function.Injective CellRange.describe ∧
    ∀ (folder folder' : Folder) (file file' : String), (dump folder file).failure = none →
      (dump folder' file').failure = none →
      (dump folder file).output = (dump folder' file').output →
      ∃ (r r' : RangeFile) (ranges : List CellRange), openFile folder file = .ok r ∧
        openFile folder' file' = .ok r' ∧ r.ranges = ranges.map .ok ∧
        r'.ranges = ranges.map .ok := by
  refine ⟨fun a b h => CellId.path_injective (String.ofList_injective h), fun a b ha hb => ?_,
    CellRange.describe_injective, fun folder folder' file file' h h' houtput => ?_⟩
  · rw [CellId.describe, CellId.describe, String.toList_ofList, String.toList_ofList]
    exact CellId.path_prefix_iff ha hb
  · obtain ⟨r, ranges, hopen, hranges, hdump⟩ := exists_of_dump h
    obtain ⟨r', ranges', hopen', hranges', hdump'⟩ := exists_of_dump h'
    rw [hdump, hdump'] at houtput
    obtain rfl := eq_of_dumpRanges (congrArg String.toList houtput)
    exact ⟨r, r', ranges, hopen, hopen', hranges, hranges'⟩

/-- A face is above a cell two levels further down, and a file and its copy under another name are
dumped alike and hold the same ranges. -/
theorem paths_faithful_copy :
    (CellId.ofNat 0x3000000000000000).Valid ∧ (CellId.ofNat 0x2500000000000000).Valid ∧
      (CellId.ofNat 0x2500000000000000).ancestor (CellId.ofNat 0x3000000000000000).level =
        .ofNat 0x3000000000000000 ∧
      (CellId.ofNat 0x3000000000000000).describe.toList <+:
        (CellId.ofNat 0x2500000000000000).describe.toList ∧
      ∃ (folder copy : Folder) (r r' : RangeFile) (ranges : List CellRange),
        (dump folder "cells").failure = none ∧ (dump copy "copy").failure = none ∧
        (dump folder "cells").output = (dump copy "copy").output ∧
        openFile folder "cells" = .ok r ∧ openFile copy "copy" = .ok r' ∧
        r.ranges = ranges.map .ok ∧ r'.ranges = ranges.map .ok := by
  obtain ⟨-, hbelow, -, hdump⟩ := paths_faithful
  have hface : (CellId.ofNat 0x3000000000000000).Valid := by decide +kernel
  have hcell : (CellId.ofNat 0x2500000000000000).Valid := by decide +kernel
  have hancestor : (CellId.ofNat 0x2500000000000000).ancestor
      (CellId.ofNat 0x3000000000000000).level = .ofNat 0x3000000000000000 := by decide +kernel
  refine ⟨hface, hcell, hancestor,
    (hbelow _ _ hface hcell).2 ⟨by decide +kernel, hancestor⟩, ?_⟩
  obtain ⟨folder, hwrite⟩ := exists_sample_file
  obtain ⟨-, -, bytes, r, hread, hr, -, hfile⟩ := RangeWriter.isFileOf_of_writeFile hwrite
  let copy := Folder.empty.put ⟨["copy"]⟩ (.file bytes)
  have hcells : Path.ofString "cells" = ⟨["cells"]⟩ := Path.ofString_name (by decide)
  have hcopy : Path.ofString "copy" = ⟨["copy"]⟩ := Path.ofString_name (by decide)
  have hopen : openFile folder "cells" = .ok r := by
    rw [openFile, hcells, hread]
    exact hr
  have hread' : copy.read ⟨["copy"]⟩ = .ok bytes := by
    rw [Folder.read, Folder.get?_put_self (by decide)]
    rfl
  have hopen' : openFile copy "copy" = .ok r := by
    rw [openFile, hcopy, hread']
    exact hr
  have hfailure : (dump folder "cells").failure = none := by
    have hranges : r.ranges = ([RangeWriter.sampleRange 0 1 7, RangeWriter.sampleRange 3 4 8].map
        (CellRange.stored r.format)).map .ok := by
      rw [hfile.ranges_eq, List.map_map]
      rfl
    simp only [dump, hopen, hranges, dumpRanges_map_ok]
  have hsame : dump copy "copy" = dump folder "cells" := by
    rw [dump, dump, hopen, hopen']
  obtain ⟨r₁, r₂, ranges, h₁, h₂, hranges₁, hranges₂⟩ := hdump folder copy "cells" "copy" hfailure
    (hsame ▸ hfailure) (congrArg _ hsame.symm)
  exact ⟨folder, copy, r₁, r₂, ranges, hfailure, hsame ▸ hfailure, congrArg _ hsame.symm, h₁, h₂,
    hranges₁, hranges₂⟩

end CellIndex
