/-!
# Paths

The way to a file or a directory, as it is written down.  A path is the list of the parts between
the slashes of its text, so that no text is lost (`toString_ofString`); where it leads is said by
its steps.

The temporary file for a target stands beside it, and is neither the target itself
(`steps_temporary_ne`) nor a directory that is known to exist (`isAbove_temporary`).
-/

namespace CellIndex

/-- The way to a file or a directory. -/
structure Path where
  /-- What stands between the slashes. -/
  parts : List String
deriving DecidableEq, Inhabited, Repr

namespace Path

/-! ## Texts -/

/-- The parts of a text between its slashes, of which there is at least one. -/
def split : List Char → List (List Char)
  | [] => [[]]
  | c :: rest =>
    if c = '/' then [] :: split rest
    else match split rest with
      | [] => [[c]]
      | part :: others => (c :: part) :: others

/-- The text whose parts are given. -/
def join : List (List Char) → List Char
  | [] => []
  | [part] => part
  | part :: others => part ++ '/' :: join others

theorem split_ne_nil (text : List Char) : split text ≠ [] := by
  cases text with
  | nil => simp [split]
  | cons c rest =>
    rw [split]
    split
    · simp
    · split <;> simp

/-- Putting slashes between the parts of a text gives the text back. -/
theorem join_split (text : List Char) : join (split text) = text := by
  induction text with
  | nil => rfl
  | cons c rest ih =>
    obtain ⟨part, others, h⟩ := List.exists_cons_of_ne_nil (split_ne_nil rest)
    rw [h] at ih
    by_cases hc : c = '/'
    · rw [split, if_pos hc, h, hc, join, ih, List.nil_append]
      simp
    · rw [split, if_neg hc, h]
      cases others with
      | nil => exact congrArg (c :: ·) ih
      | cons next more => exact congrArg (c :: ·) ih

/-- A text without slashes is a single part. -/
theorem split_of_not_mem {text : List Char} (h : '/' ∉ text) : split text = [text] := by
  induction text with
  | nil => rfl
  | cons c rest ih =>
    rw [List.mem_cons, not_or] at h
    rw [split, if_neg (Ne.symm h.1), ih h.2]

/-- The path in a text. -/
def ofString (text : String) : Path := ⟨(split text.toList).map String.ofList⟩

/-- The text of a path. -/
def toString (p : Path) : String := .ofList (join (p.parts.map String.toList))

theorem toString_ofString (text : String) : (ofString text).toString = text := by
  have id : String.toList ∘ String.ofList = id := funext fun _ => String.toList_ofList
  rw [toString, ofString, List.map_map, id, List.map_id, join_split, String.ofList_toList]

/-- A plain name is a path of one part. -/
theorem ofString_name {name : String} (h : '/' ∉ name.toList) : ofString name = ⟨[name]⟩ := by
  rw [ofString, split_of_not_mem h, List.map_singleton, String.ofList_toList]

/-! ## Where a path leads -/

/-- The step to the directory above. -/
def upward : String := ".."

/-- The step to the root of the file system, which is the name of nothing else. -/
def root : String := "/"

/-- Whether a part of a path stays where it is: an empty one or a single dot. -/
def isIdle (part : String) : Bool := part = "" || part = "."

/-- Whether a path begins at the root of the file system, as a slash in front says. -/
def isRooted (p : Path) : Bool := p.parts.head? = some "" && 1 < p.parts.length

/-- The names on the way, where two dots lead one directory up.  No steps lead to the folder that
the path begins in. -/
def steps (p : Path) : List String :=
  let names := p.parts.filter (! isIdle ·)
  if p.isRooted then root :: names else names

/-- Whether only a directory can be meant, since the text ends after a slash. -/
def directoryOnly (p : Path) : Bool := p.parts.getLast?.any isIdle

/-- Whether a path leads to the folder that it begins in or to a directory above it. -/
def isAbove (p : Path) : Bool := p.steps.all (· = upward)

/-- The name that a path ends in, unless it ends in a step that names nothing. -/
def name? (p : Path) : Option String := p.steps.getLast?.filter (· ∉ [upward, root])

theorem steps_name {name : String} (h : isIdle name = false) :
    (⟨[name]⟩ : Path).steps = [name] := by
  simp [steps, isRooted, h]

theorem getLast?_steps_append {parts : List String} {name : String} (h : isIdle name = false) :
    (⟨parts ++ [name]⟩ : Path).steps.getLast? = some name := by
  unfold steps
  split <;> simp [h, List.getLast?_cons]

/-! ## Lengths -/

/-- The largest number of bytes in the text of a path. -/
def maxTextSize : Nat := 4095

/-- The largest number of bytes in a part of a path. -/
def maxPartSize : Nat := 255

/-- Whether a path is short enough to be used. -/
def fits (p : Path) : Bool :=
  p.toString.utf8ByteSize ≤ maxTextSize && p.parts.all (·.utf8ByteSize ≤ maxPartSize)

/-! ## The temporary file for a target -/

/-- The parts up to the last that leads somewhere. -/
def trim (parts : List String) : List String := (parts.reverse.dropWhile isIdle).reverse

/-- The parts up to the last that leads somewhere, and the first in any case. -/
def trimRest : List String → List String
  | [] => []
  | first :: rest => first :: trim rest

/-- What follows the name of a target in the name of its temporary file. -/
def temporaryEnding : String := ".tmp"

/-- The temporary file for a target: beside it, under its name with an ending, or in it if it has no
name. -/
def temporary (p : Path) : Path :=
  match p.name? with
  | some name => ⟨trimRest (trim p.parts).dropLast ++ [name ++ temporaryEnding]⟩
  | none =>
    let parts := if p.parts.getLast? = some "" then p.parts.dropLast else p.parts
    ⟨parts ++ [temporaryEnding]⟩

/-- The directory in which the last part of a path stands. -/
def parent (p : Path) : Path := ⟨p.parts.dropLast ++ [""]⟩

/-- The temporary file for a plain name. -/
theorem temporary_name {name : String} (h : isIdle name = false) (hu : name ≠ upward)
    (hr : name ≠ root) : (⟨[name]⟩ : Path).temporary = ⟨[name ++ temporaryEnding]⟩ := by
  have named : (⟨[name]⟩ : Path).name? = some name := by
    simp [name?, steps_name h, Option.filter, hu, hr]
  simp [temporary, named, trim, trimRest, h]

theorem length_append_ending (name : String) :
    (name ++ temporaryEnding).length = name.length + 4 := by
  rw [String.length_append, show temporaryEnding.length = 4 from rfl]

theorem isIdle_append_ending (name : String) : isIdle (name ++ temporaryEnding) = false := by
  have length := length_append_ending name
  have empty : name ++ temporaryEnding ≠ "" := fun h => by
    rw [h, show "".length = 0 from rfl] at length
    omega
  have dot : name ++ temporaryEnding ≠ "." := fun h => by
    rw [h, show ".".length = 1 from rfl] at length
    omega
  simp [isIdle, empty, dot]

/-- The last step to a temporary file. -/
theorem getLast?_steps_temporary (p : Path) :
    p.temporary.steps.getLast? = some ((p.name?.getD "") ++ temporaryEnding) := by
  unfold temporary
  split
  · next name h => rw [h]; exact getLast?_steps_append (isIdle_append_ending name)
  · next h => rw [h]; exact getLast?_steps_append (isIdle_append_ending "")

/-- A temporary file is never a directory above the folder. -/
theorem isAbove_temporary (p : Path) : p.temporary.isAbove = false := by
  have last := getLast?_steps_temporary p
  refine Bool.eq_false_iff.2 fun above => ?_
  have up := List.all_eq_true.1 above _ (List.mem_of_getLast? last)
  have length := length_append_ending (p.name?.getD "")
  rw [of_decide_eq_true up, show upward.length = 2 from rfl] at length
  omega

/-- A temporary file is not its target. -/
theorem steps_temporary_ne (p : Path) : p.temporary.steps ≠ p.steps := by
  intro same
  have last := getLast?_steps_temporary p
  rw [same] at last
  cases hn : p.name? with
  | some name =>
    have name_last : p.steps.getLast? = some name := (Option.filter_eq_some_iff.1 hn).1
    rw [hn, name_last, Option.getD_some] at last
    have length := length_append_ending name
    rw [← Option.some.inj last] at length
    omega
  | none =>
    rw [hn] at last
    rw [name?, last] at hn
    exact absurd hn (by decide)

end Path

end CellIndex
