import CellIndex.Proofs.Run
import CellIndex.Proofs.Table.Cleanup
import CellIndex.Proofs.Table.Writing

/-!
# When a table appears

In the life of a writer blocks are written and counted, and at last the writer is finished,
discarded or dropped, after which nothing happens any more (`Stage.step`).  At any time a writer is
at work, is gone without a table, or is gone and its table has appeared (`Phase`); each step leads
from phase to phase (`Phase.step`).

So the temporary file is there exactly as long as the writer, and what stands at the target is what
has been there before, or the file of all blocks that have been taken.  That file is read as the
table of these blocks, unless there is a block for every number: then the header counts none, and
the file is refused (**`orderly_after`**).
-/

namespace CellIndex

open Sequence

/-- The table holds these blocks and no others. -/
structure Table.Holds (t : Table) (blocks : List Block) : Prop where
  perm : t.blocks.toList.Perm blocks
  find?_eq_some_iff : ∀ id block, t.find? id = some block ↔ block ∈ blocks ∧ block.id = id

/-- The file of a builder is a table of its blocks. -/
lemma Builder.exists_holds_of_image {b : Builder} {timestamp : Int64}
    (hshared : ∀ block ∈ b.blocks, block.shared.length < 2 ^ 32) (hcount : b.blockCount < 2 ^ 32)
    (hsize : (b.image timestamp).length < 2 ^ 64) :
    ∃ t, Table.ofBytes (b.image timestamp) = .ok t ∧ t.Holds b.blocks := by
  have hperm : b.sortedBlocks.Perm b.blocks := List.mergeSort_perm _ _
  refine ⟨_, Builder.ofBytes_image hshared hcount hsize, hperm, fun id block => ?_⟩
  constructor
  · intro hfind
    obtain ⟨hmem, hid⟩ := Table.mem_of_find? hfind
    exact ⟨hperm.mem_iff.1 hmem, hid⟩
  · rintro ⟨hmem, rfl⟩
    exact Table.find?_of_mem b.pairwise_sortedBlocks (hperm.mem_iff.2 hmem)

namespace TableWriter

/-! ## Steps -/

/-- What is done with a writer. -/
inductive Step
  /-- A block is written. -/
  | writeBlock (block : Block)
  /-- The blocks are counted. -/
  | blockCount
  /-- The writer is finished. -/
  | finish (timestamp : Int64)
  /-- The writer is discarded. -/
  | discard
  /-- The writer is dropped. -/
  | drop

/-- What a step is answered with. -/
inductive Answer
  /-- There is no writer any more. -/
  | gone
  /-- The step has been done, or has failed. -/
  | done (result : Except Error Unit)
  /-- The number of blocks. -/
  | count (blocks : Nat)

/-- A writer, unless it has come to its end, and the folder. -/
structure Stage where
  /-- The writer, as long as there is one. -/
  handle : Option Handle
  /-- The folder as it is now. -/
  folder : Folder

/-- The beginning: a new writer, or none, and then nothing is changed in the folder. -/
def Stage.create (folder : Folder) (target : Path) : Stage :=
  match TableWriter.create folder target with
  | .ok created => ⟨some { writer := created.1, isOpen := true }, created.2⟩
  | .error _ => ⟨none, folder⟩

/-- A step.  Once the writer is gone, nothing happens any more. -/
def Stage.step (s : Stage) (step : Step) : Answer × Stage :=
  match s.handle, step with
  | none, _ => (.gone, s)
  | some h, .writeBlock block =>
    match h.writer.writeBlock block with
    | .ok writer => (.done (.ok ()), ⟨some { h with writer }, s.folder⟩)
    | .error e => (.done (.error e), s)
  | some h, .blockCount => (.count h.writer.blockCount, s)
  | some h, .finish timestamp =>
    let (answer, folder) := h.finish s.folder timestamp
    (.done answer, ⟨none, folder⟩)
  | some h, .discard => (.done (.ok ()), ⟨none, h.discard s.folder⟩)
  | some h, .drop => (.done (.ok ()), ⟨none, h.drop s.folder⟩)

/-- The blocks that have been taken. -/
def taken (history : List (Step × Answer)) : List Block :=
  history.filterMap fun
    | (.writeBlock block, .done (.ok ())) => some block
    | _ => none

/-- The writer has been finished with success. -/
def Published (history : List (Step × Answer)) : Prop :=
  ∃ timestamp, (Step.finish timestamp, Answer.done (.ok ())) ∈ history

/-- The target holds the whole file of the blocks, and nothing else has changed but the temporary
file. -/
structure Appears (initial : Folder) (target : Path) (blocks : List Block) (folder : Folder) :
    Prop where
  file : ∃ (b : Builder) (timestamp : Int64), b.blocks = blocks ∧
    folder.read target = .ok (b.image timestamp) ∧
    (b.image timestamp).length ≤ Folder.maxFileSize
  others : ∀ path : Path, path.steps ≠ target.steps → path.steps ≠ target.temporary.steps →
    folder.get? path = initial.get? path

/-- What holds at any time in the life of a writer, after steps with the answers `history`. -/
structure Orderly (initial : Folder) (target : Path) (history : List (Step × Answer)) (s : Stage) :
    Prop where
  /-- The temporary file exists exactly while the writer does. -/
  temporary_iff : (s.folder.get? target.temporary).isSome ↔ s.handle.isSome
  /-- Before the writer is finished with success, the target and all other files are what they
  were. -/
  kept : ¬ Published history → s.folder.get? target = initial.get? target ∧
    initial.Keeps target s.folder
  /-- Afterwards the target holds the file of the blocks that have been taken. -/
  appears : Published history → s.handle = none ∧ Appears initial target (taken history) s.folder
  /-- A writer counts the blocks that have been taken. -/
  counts : s.handle.isSome → s.step .blockCount = (.count (taken history).length, s)
  /-- A writer takes a block if its number is new and its shared data are not too long. -/
  takes : s.handle.isSome → ∀ block, (s.step (.writeBlock block)).1 = .done (.ok ()) ↔
    (∀ other ∈ taken history, other.id ≠ block.id) ∧ block.shared.length < 2 ^ 32
  /-- A block that is refused leaves everything as it is. -/
  refuses : ∀ block e, (s.step (.writeBlock block)).1 = .done (.error e) →
    (s.step (.writeBlock block)).2 = s
  /-- A writer is finished with success exactly if its target can be a file of that size. -/
  finishes : ∀ h ∈ s.handle, ∀ timestamp, (s.step (.finish timestamp)).1 = .done (.ok ()) ↔
    s.folder.Publishable target (h.writer.builder.image timestamp)
  /-- A writer that is discarded or dropped, or finished without success, is gone, leaves the target
  as it was, and leaves no temporary file. -/
  given_up : s.handle.isSome → ∀ step, (∀ block, step ≠ .writeBlock block) → step ≠ .blockCount →
    (∀ timestamp, step = .finish timestamp → (s.step step).1 ≠ .done (.ok ())) →
      (s.step step).2.handle = none ∧ (s.step step).2.folder.get? target = initial.get? target ∧
        (s.step step).2.folder.get? target.temporary = none

/-- A writer at work has its temporary file in hand and the blocks that have been taken. -/
structure AtWork (target : Path) (initial : Folder) (history : List (Step × Answer)) (h : Handle)
    (folder : Folder) : Prop where
  isOpen : h.isOpen = true
  target_eq : h.writer.target = target
  blocks : h.writer.builder.blocks = taken history
  shared : ∀ block ∈ h.writer.builder.blocks, block.shared.length < 2 ^ 32
  unpublished : ¬ Published history
  keeps : initial.Keeps target folder
  temporary : (folder.get? target.temporary).isSome

/-- Where a writer is in its life. -/
inductive Phase (target : Path) (initial : Folder) (history : List (Step × Answer)) : Stage → Prop
  /-- The writer is at work. -/
  | working {h : Handle} {folder : Folder} (work : AtWork target initial history h folder) :
      Phase target initial history ⟨some h, folder⟩
  /-- The writer is gone without a table. -/
  | gone {folder : Folder} (unpublished : ¬ Published history)
      (keeps : initial.Keeps target folder) (temporary : folder.get? target.temporary = none) :
      Phase target initial history ⟨none, folder⟩
  /-- The writer is gone, and its table has appeared. -/
  | published {folder : Folder} (published : Published history)
      (shared : ∀ block ∈ taken history, block.shared.length < 2 ^ 32)
      (appears : Appears initial target (taken history) folder)
      (temporary : folder.get? target.temporary = none) :
      Phase target initial history ⟨none, folder⟩

variable {target : Path} {initial folder folder₁ : Folder} {h : Handle} {w : TableWriter}
  {history : List (Step × Answer)} {s : Stage} {last : Step} {answer : Answer}

/-! ## Histories -/

lemma taken_concat (history : List (Step × Answer)) (last : Step) (answer : Answer) :
    taken (history ++ [(last, answer)]) = taken history ++ taken [(last, answer)] :=
  List.filterMap_append

/-! ## From phase to phase -/

/-- The file of a builder appears at a target that can be a file of its size. -/
lemma appears_of_publishable {b : Builder} {timestamp : Int64}
    (hkeeps : initial.Keeps target folder)
    (hpub : folder.Publishable target (b.image timestamp)) :
    Appears initial target b.blocks
      ((folder.abandon target).put target (.file (b.image timestamp))) where
  file := ⟨b, timestamp, rfl, Folder.read_of_publish (Folder.publish_of_publishable hpub)⟩
  others path htarget htemporary := by
    rw [Folder.get?_put_of_ne htarget]
    exact hkeeps.abandon path htemporary

/-- A step that takes no block and does not finish the writer leaves it at work. -/
lemma AtWork.concat (hw : AtWork target initial history h folder)
    (htaken : taken [(last, answer)] = [])
    (hlast : ∀ timestamp, last = .finish timestamp → answer ≠ .done (.ok ())) :
    AtWork target initial (history ++ [(last, answer)]) h folder where
  isOpen := hw.isOpen
  target_eq := hw.target_eq
  blocks := by rw [taken_concat, htaken, List.append_nil, hw.blocks]
  shared := hw.shared
  unpublished := Run.not_exists_mem_concat hw.unpublished hlast
  keeps := hw.keeps
  temporary := hw.temporary

/-- A writer at work takes a block and goes on with it, or refuses it and stays as it is. -/
lemma AtWork.writeBlock (hw : AtWork target initial history h folder) (block : Block) :
    Phase target initial
      (history ++ [(.writeBlock block, (Stage.step ⟨some h, folder⟩ (.writeBlock block)).1)])
      (Stage.step ⟨some h, folder⟩ (.writeBlock block)).2 := by
  cases hblock : h.writer.writeBlock block with
  | ok w =>
    obtain ⟨hblocks, htarget⟩ := blocks_of_writeBlock hblock
    simp only [Stage.step, hblock]
    refine .working ⟨hw.isOpen, htarget.trans hw.target_eq, ?_, ?_,
      Run.not_exists_mem_concat hw.unpublished (by simp), hw.keeps, hw.temporary⟩
    · rw [taken_concat, hblocks, hw.blocks]
      rfl
    · intro other hother
      rw [hblocks, List.mem_append, List.mem_singleton] at hother
      rcases hother with hother | rfl
      · exact hw.shared other hother
      · exact shared_lt_of_writeBlock hblock
  | error e =>
    simp only [Stage.step, hblock]
    exact .working (hw.concat rfl (by simp))

/-- A writer at work is finished. -/
lemma AtWork.finish (hw : AtWork target initial history h folder) (timestamp : Int64) :
    Phase target initial
      (history ++ [(.finish timestamp, (Stage.step ⟨some h, folder⟩ (.finish timestamp)).1)])
      (Stage.step ⟨some h, folder⟩ (.finish timestamp)).2 := by
  have htaken (answer : Answer) :
      taken (history ++ [(.finish timestamp, answer)]) = h.writer.builder.blocks := by
    rw [taken_concat, hw.blocks]
    exact List.append_nil _
  simp only [Stage.step, Handle.finish_eq hw.isOpen, TableWriter.finish, hw.target_eq]
  by_cases hpub : folder.Publishable target (h.writer.builder.image timestamp)
  · rw [Folder.publish_of_publishable hpub]
    refine .published (Run.exists_mem_concat.2 (.inr ⟨timestamp, rfl, rfl⟩)) ?_ ?_ ?_
    · rw [htaken]
      exact hw.shared
    · rw [htaken]
      exact appears_of_publishable hw.keeps hpub
    · rw [Folder.get?_put_of_ne target.steps_temporary_ne]
      exact folder.get?_temporary_abandon target
  · rw [Folder.publish_of_not_publishable hpub]
    exact .gone (Run.not_exists_mem_concat hw.unpublished (by simp)) hw.keeps.abandon
      (folder.get?_temporary_abandon target)

/-- A writer at work is given up. -/
lemma AtWork.abandon (hw : AtWork target initial history h folder)
    (hlast : ∀ timestamp, last ≠ .finish timestamp) :
    Phase target initial (history ++ [(last, answer)]) ⟨none, folder.abandon target⟩ :=
  .gone (Run.not_exists_mem_concat hw.unpublished fun timestamp h => absurd h (hlast timestamp))
    hw.keeps.abandon (folder.get?_temporary_abandon target)

/-- Every step leads to a phase again. -/
lemma Phase.step (hs : Phase target initial history s) (step : Step) :
    Phase target initial (history ++ [(step, (s.step step).1)]) (s.step step).2 := by
  cases hs with
  | @working h folder hw =>
    cases step with
    | writeBlock block => exact hw.writeBlock block
    | blockCount => exact .working (hw.concat rfl (by simp))
    | finish timestamp => exact hw.finish timestamp
    | discard =>
      simp only [Stage.step, Handle.discard_eq, TableWriter.discard, hw.target_eq]
      exact hw.abandon (by simp)
    | drop =>
      simp only [Stage.step, Handle.drop_eq hw.isOpen, TableWriter.discard, hw.target_eq]
      exact hw.abandon (by simp)
  | gone unpublished keeps temporary =>
    exact .gone (Run.not_exists_mem_concat unpublished (by simp [Stage.step])) keeps temporary
  | published published shared appears temporary =>
    have htaken : taken (history ++ [(step, .gone)]) = taken history := by
      rw [taken_concat]
      cases step <;> exact List.append_nil _
    exact .published (Run.exists_mem_concat.2 (.inl published)) (htaken.symm ▸ shared)
      (htaken.symm ▸ appears) temporary

lemma Stage.create_of_ok (h : TableWriter.create folder target = .ok (w, folder₁)) :
    Stage.create folder target = ⟨some { writer := w, isOpen := true }, folder₁⟩ := by
  simp only [Stage.create, h]

lemma Stage.create_of_error {e : Error} (h : TableWriter.create folder target = .error e) :
    Stage.create folder target = ⟨none, folder⟩ := by
  simp only [Stage.create, h]

/-- A new writer is at work. -/
lemma Phase.of_create (hcreate : TableWriter.create folder target = .ok (w, folder₁)) :
    Phase target folder [] (Stage.create folder target) := by
  rw [Stage.create_of_ok hcreate]
  obtain ⟨folder', hreserve, heq⟩ := map_eq_ok.1 hcreate
  obtain ⟨rfl, rfl⟩ := Prod.mk.inj heq
  obtain ⟨hkeeps, htemporary⟩ := Folder.keeps_of_reserve hreserve
  exact .working ⟨rfl, rfl, rfl, by simp [Builder.empty], by simp [Published], hkeeps, htemporary⟩

/-! ## What the phase says -/

lemma Phase.temporary_iff (hs : Phase target initial history s) :
    (s.folder.get? target.temporary).isSome ↔ s.handle.isSome := by
  cases hs with
  | working hw => simp [hw.temporary]
  | gone unpublished keeps temporary => simp [temporary]
  | published published shared appears temporary => simp [temporary]

lemma Phase.keeps (hs : Phase target initial history s) (hp : ¬ Published history) :
    initial.Keeps target s.folder := by
  cases hs with
  | working hw => exact hw.keeps
  | gone unpublished keeps temporary => exact keeps
  | published published shared appears temporary => exact absurd published hp

lemma Phase.appears (hs : Phase target initial history s) (hp : Published history) :
    s.handle = none ∧ Appears initial target (taken history) s.folder := by
  cases hs with
  | working hw => exact absurd hp hw.unpublished
  | gone unpublished keeps temporary => exact absurd hp unpublished
  | published published shared appears temporary => exact ⟨rfl, appears⟩

/-- The file that has appeared is read as a table of the blocks, unless there are so many of them
that the header counts none. -/
lemma Phase.exists_read (hs : Phase target initial history s) (hp : Published history) :
    ∃ bytes, s.folder.read target = .ok bytes ∧
      ((taken history).length < 2 ^ 32 →
        ∃ t, Table.ofBytes bytes = .ok t ∧ t.Holds (taken history)) ∧
      (2 ^ 32 ≤ (taken history).length → ∃ offset,
        Table.ofBytes bytes = .error (.corrupt (.directoryEnd 0 offset bytes.length))) := by
  cases hs with
  | working hw => exact absurd hp hw.unpublished
  | gone unpublished keeps temporary => exact absurd hp unpublished
  | published published shared appears temporary =>
    obtain ⟨b, timestamp, hblocks, hread, hle⟩ := appears.file
    have hsize : (b.image timestamp).length < 2 ^ 64 := Nat.lt_of_le_of_lt hle (by decide)
    rw [← hblocks] at shared ⊢
    exact ⟨_, hread, fun hcount => Builder.exists_holds_of_image shared hcount hsize,
      fun hcount => ⟨_, Builder.ofBytes_image_of_full hcount hsize⟩⟩

/-- As long as there is a writer, it is at work. -/
lemma Phase.atWork (hs : Phase target initial history s) (hopen : s.handle.isSome) :
    ∃ h folder, s = ⟨some h, folder⟩ ∧ AtWork target initial history h folder := by
  cases hs with
  | working hw => exact ⟨_, _, rfl, hw⟩
  | gone unpublished keeps temporary => simp at hopen
  | published published shared appears temporary => simp at hopen

lemma AtWork.counts (hw : AtWork target initial history h folder) :
    Stage.step ⟨some h, folder⟩ .blockCount =
      (.count (taken history).length, ⟨some h, folder⟩) := by
  rw [← hw.blocks]
  rfl

lemma AtWork.takes_iff (hw : AtWork target initial history h folder) (block : Block) :
    (Stage.step ⟨some h, folder⟩ (.writeBlock block)).1 = .done (.ok ()) ↔
      (∀ other ∈ taken history, other.id ≠ block.id) ∧ block.shared.length < 2 ^ 32 := by
  have hnew : block.id ∉ h.writer.builder.blocks.map Block.id ↔
      ∀ other ∈ taken history, other.id ≠ block.id := by
    simp [hw.blocks]
  rw [← hnew]
  cases hblock : h.writer.writeBlock block with
  | ok w =>
    simp only [Stage.step, hblock]
    refine iff_of_true trivial ⟨fun hmem => ?_, shared_lt_of_writeBlock hblock⟩
    rw [writeBlock_of_mem hmem] at hblock
    cases hblock
  | error e =>
    simp only [Stage.step, hblock]
    refine iff_of_false (by simp) ?_
    rintro ⟨hid, hshared⟩
    obtain ⟨w, hok⟩ := exists_writeBlock hid hshared
    rw [hok] at hblock
    cases hblock

lemma AtWork.finishes_iff (hw : AtWork target initial history h folder) (timestamp : Int64) :
    (Stage.step ⟨some h, folder⟩ (.finish timestamp)).1 = .done (.ok ()) ↔
      folder.Publishable target (h.writer.builder.image timestamp) := by
  simp only [Stage.step, Handle.finish_eq hw.isOpen, TableWriter.finish, hw.target_eq]
  by_cases hpub : folder.Publishable target (h.writer.builder.image timestamp)
  · rw [Folder.publish_of_publishable hpub]
    exact iff_of_true rfl hpub
  · rw [Folder.publish_of_not_publishable hpub]
    exact iff_of_false (by simp) hpub

/-- A block that is refused leaves everything as it is. -/
lemma Stage.step_of_refused {block : Block} {e : Error}
    (h : (s.step (.writeBlock block)).1 = .done (.error e)) :
    (s.step (.writeBlock block)).2 = s := by
  obtain ⟨handle, folder⟩ := s
  cases handle with
  | none => rfl
  | some h' =>
    cases hblock : h'.writer.writeBlock block with
    | ok w => simp [Stage.step, hblock] at h
    | error e' => simp only [Stage.step, hblock]

/-- After any step but writing and counting there is no writer. -/
lemma Stage.handle_step_of_ne (s : Stage) (hwrite : ∀ block, last ≠ .writeBlock block)
    (hcount : last ≠ .blockCount) : (s.step last).2.handle = none := by
  obtain ⟨handle, folder⟩ := s
  cases handle with
  | none => rfl
  | some h =>
    cases last with
    | writeBlock block => exact absurd rfl (hwrite block)
    | blockCount => exact absurd rfl hcount
    | finish timestamp => simp only [Stage.step]
    | discard => rfl
    | drop => rfl

lemma Phase.orderly (hs : Phase target initial history s) : Orderly initial target history s where
  temporary_iff := hs.temporary_iff
  kept hp := ⟨(hs.keeps hp).target_eq, hs.keeps hp⟩
  appears := hs.appears
  counts hopen := by
    obtain ⟨h, folder, rfl, hw⟩ := hs.atWork hopen
    exact hw.counts
  takes hopen block := by
    obtain ⟨h, folder, rfl, hw⟩ := hs.atWork hopen
    exact hw.takes_iff block
  refuses _ _ := Stage.step_of_refused
  finishes h hh timestamp := by
    obtain ⟨h', folder, rfl, hw⟩ := hs.atWork (Option.isSome_of_mem hh)
    obtain rfl : h' = h := Option.some.inj hh
    exact hw.finishes_iff timestamp
  given_up hopen step hwrite hcount hanswer := by
    obtain ⟨h, folder, rfl, hw⟩ := hs.atWork hopen
    have hgone := Stage.handle_step_of_ne ⟨some h, folder⟩ hwrite hcount
    have hnext := hs.step step
    have hp : ¬ Published _ := Run.not_exists_mem_concat hw.unpublished hanswer
    refine ⟨hgone, (hnext.keeps hp).target_eq, ?_⟩
    simpa [hgone] using hnext.temporary_iff

/-- **A table appears when a writer is finished, whole, and else nothing does.**  Whatever is done
with a new writer, its temporary file and its target are at any time as they should be.  The file of
a finished writer is read as the table of the blocks that have been taken as long as there are fewer
than `2 ^ 32` of them.  If there are as many, every number is used, the word in the header that
counts them is zero, and the file is refused.  If no writer can be created, nothing is ever changed
in the folder. -/
theorem orderly_after (folder : Folder) (target : Path) (steps : List Step) :
    let history := Run.history Stage.step (Stage.create folder target) steps
    let s := Run.after Stage.step (Stage.create folder target) steps
    ((∃ w folder₁, TableWriter.create folder target = .ok (w, folder₁)) →
        Orderly folder target history s ∧
          (Published history → ∃ bytes, s.folder.read target = .ok bytes ∧
            ((taken history).length < 2 ^ 32 →
              ∃ t, Table.ofBytes bytes = .ok t ∧ t.Holds (taken history)) ∧
            (2 ^ 32 ≤ (taken history).length → ∃ offset,
              Table.ofBytes bytes = .error (.corrupt (.directoryEnd 0 offset bytes.length))))) ∧
      ∀ e, TableWriter.create folder target = .error e → s = ⟨none, folder⟩ := by
  intro history s
  constructor
  · rintro ⟨w, folder₁, hcreate⟩
    have hphase : Phase target folder history s :=
      Run.invariant (Phase.of_create hcreate) (fun _ _ step hs => hs.step step) steps
    exact ⟨hphase.orderly, hphase.exists_read⟩
  · intro e hcreate
    simp only [s, Stage.create_of_error hcreate]
    clear history s
    induction steps with
    | nil => rfl
    | cons step steps ih => exact ih

/-- A folder with a file at the target. -/
def oldFile : Folder := Folder.empty.put ⟨["cells"]⟩ (.file [1])

/-- A folder with a directory in the way of the temporary file. -/
def blocked : Folder := Folder.empty.put (Path.temporary ⟨["cells"]⟩) .directory

/-- A block, and another one with its number. -/
def repeatedId : List Step := [.writeBlock ⟨9, [1], [2, 3]⟩, .writeBlock ⟨9, [5], []⟩]

/-- The writer that has taken the first of the blocks. -/
def oneBlock : Handle := ⟨⟨⟨["cells"]⟩, ⟨[⟨9, [1], [2, 3]⟩], by decide⟩⟩, true⟩

/-- The folder with the file at the target while there is a writer. -/
def oldFileAtWork : Folder := oldFile.put (Path.temporary ⟨["cells"]⟩) (.file [])

lemma create_oldFile : create oldFile ⟨["cells"]⟩ = .ok (⟨⟨["cells"]⟩, .empty⟩, oldFileAtWork) := by
  rw [create, Folder.reserve, if_neg (by decide +kernel), if_neg (by decide +kernel),
    if_neg (by decide +kernel)]
  rfl

lemma create_blocked : create blocked ⟨["cells"]⟩ = .error .io := by
  rw [create, Folder.reserve, if_neg (by decide +kernel), if_neg (by decide +kernel),
    if_pos (by decide +kernel)]
  rfl

/-- The second block is refused. -/
lemma run_repeatedId :
    Run.after Stage.step (Stage.create oldFile ⟨["cells"]⟩) repeatedId =
        ⟨some oneBlock, oldFileAtWork⟩ ∧
      taken (Run.history Stage.step (Stage.create oldFile ⟨["cells"]⟩) repeatedId) =
        [⟨9, [1], [2, 3]⟩] := by
  rw [Stage.create_of_ok create_oldFile]
  exact ⟨rfl, rfl⟩

lemma publishable_oldFileAtWork {bytes : Bytes} (h : bytes.length ≤ Folder.maxFileSize) :
    oldFileAtWork.Publishable ⟨["cells"]⟩ bytes :=
  ⟨by decide +kernel, by decide +kernel, by decide +kernel, h⟩

lemma publishable_oneBlock :
    oldFileAtWork.Publishable ⟨["cells"]⟩ (oneBlock.writer.builder.image 0) := by
  have hlength : (oneBlock.writer.builder.image 0).length = 91 := by
    rw [Builder.length_image]
    decide +kernel
  exact publishable_oldFileAtWork (by rw [hlength]; decide)

/-- The second block is refused, the file that was there is replaced by a table of the first one,
and no temporary file is left.  Where no writer can be created, nothing happens. -/
theorem orderly_after_repeated_id :
    (∃ s bytes t,
      Run.after Stage.step (Stage.create oldFile ⟨["cells"]⟩) (repeatedId ++ [.finish 0]) = s ∧
        s.folder.read ⟨["cells"]⟩ = .ok bytes ∧ Table.ofBytes bytes = .ok t ∧
        t.Holds [⟨9, [1], [2, 3]⟩] ∧ s.folder.get? (Path.temporary ⟨["cells"]⟩) = none) ∧
      Run.after Stage.step (Stage.create blocked ⟨["cells"]⟩) (repeatedId ++ [.finish 0]) =
        ⟨none, blocked⟩ := by
  refine ⟨?_, (orderly_after blocked ⟨["cells"]⟩ _).2 _ create_blocked⟩
  have horderly := fun steps =>
    (orderly_after oldFile ⟨["cells"]⟩ steps).1 ⟨_, _, create_oldFile⟩
  obtain ⟨hafter, htaken⟩ := run_repeatedId
  obtain ⟨hworking, -⟩ := horderly repeatedId
  rw [hafter] at hworking
  have hfinish := (hworking.finishes oneBlock rfl 0).2 publishable_oneBlock
  obtain ⟨hdone, hread⟩ := horderly (repeatedId ++ [.finish 0])
  rw [Run.history_concat, hafter, hfinish] at hdone hread
  have hpublished : Published
      (Run.history Stage.step (Stage.create oldFile ⟨["cells"]⟩) repeatedId ++
        [(.finish 0, .done (.ok ()))]) := ⟨0, by simp⟩
  obtain ⟨hgone, -⟩ := hdone.appears hpublished
  obtain ⟨bytes, hbytes, htable, -⟩ := hread hpublished
  rw [taken_concat, htaken] at htable
  obtain ⟨t, ht, hholds⟩ := htable (by decide)
  refine ⟨_, bytes, t, rfl, hbytes, ht, hholds, ?_⟩
  simpa [hgone] using hdone.temporary_iff

/-! ## Every number -/

/-- Blocks without data under the first `n` numbers. -/
def emptyBlocks (n : Nat) : List Block := (List.range n).map fun i => ⟨UInt32.ofNat i, [], []⟩

lemma nodup_emptyBlocks {n : Nat} (hn : n ≤ 2 ^ 32) : ((emptyBlocks n).map Block.id).Nodup := by
  rw [emptyBlocks, List.map_map]
  refine List.Nodup.map_on (fun i hi j hj hij => ?_) List.nodup_range
  have hid : i % 2 ^ 32 = j % 2 ^ 32 := by
    rw [← UInt32.toNat_ofNat', ← UInt32.toNat_ofNat']
    exact congrArg UInt32.toNat hij
  rwa [Nat.mod_eq_of_lt (Nat.lt_of_lt_of_le (List.mem_range.1 hi) hn),
    Nat.mod_eq_of_lt (Nat.lt_of_lt_of_le (List.mem_range.1 hj) hn)] at hid

lemma eq_nil_of_mem_emptyBlocks {n : Nat} {block : Block} (h : block ∈ emptyBlocks n) :
    block.shared = [] ∧ block.data = [] := by
  obtain ⟨i, -, rfl⟩ := List.mem_map.1 h
  exact ⟨rfl, rfl⟩

lemma length_emptyBlocks (n : Nat) : (emptyBlocks n).length = n := by
  rw [emptyBlocks, List.length_map, List.length_range]

/-- Blocks under new numbers are all taken. -/
lemma Stage.exists_after_writeBlocks {blocks : List Block}
    (hnew : ((h.writer.builder.blocks ++ blocks).map Block.id).Nodup)
    (hshared : ∀ block ∈ blocks, block.shared.length < 2 ^ 32) :
    ∃ w : TableWriter, w.builder.blocks = h.writer.builder.blocks ++ blocks ∧
      Run.after Stage.step ⟨some h, folder⟩ (blocks.map .writeBlock) =
        ⟨some { h with writer := w }, folder⟩ := by
  induction blocks generalizing h with
  | nil => exact ⟨h.writer, (List.append_nil _).symm, rfl⟩
  | cons block blocks ih =>
    have hid : block.id ∉ h.writer.builder.blocks.map Block.id := by
      rw [List.map_append, List.nodup_append] at hnew
      exact fun hmem => hnew.2.2 _ hmem block.id (by simp) rfl
    obtain ⟨w, hw⟩ := exists_writeBlock hid (hshared block List.mem_cons_self)
    obtain ⟨hblocks, -⟩ := blocks_of_writeBlock hw
    have hsplit : w.builder.blocks ++ blocks = h.writer.builder.blocks ++ block :: blocks := by
      rw [hblocks, List.append_assoc, List.singleton_append]
    obtain ⟨w', hblocks', hafter⟩ := @ih { h with writer := w } (by rw [hsplit]; exact hnew)
      fun b hb => hshared b (List.mem_cons_of_mem _ hb)
    have hstep : (Stage.step ⟨some h, folder⟩ (.writeBlock block)).2 =
        ⟨some { h with writer := w }, folder⟩ := by
      simp only [Stage.step, hw]
    refine ⟨w', hblocks'.trans hsplit, ?_⟩
    rw [List.map_cons, Run.after_cons, hstep, hafter]

/-- Empty blocks under the first numbers are all taken, and then the target can be a file of their
size. -/
lemma exists_after_emptyBlocks {n : Nat} (hn : n ≤ 2 ^ 32) :
    ∃ h : Handle, Run.after Stage.step (Stage.create oldFile ⟨["cells"]⟩)
          ((emptyBlocks n).map .writeBlock) = ⟨some h, oldFileAtWork⟩ ∧
      h.writer.builder.blocks = emptyBlocks n ∧
      oldFileAtWork.Publishable ⟨["cells"]⟩ (h.writer.builder.image 0) := by
  have hnil : ∀ block ∈ emptyBlocks n, block.bytes = [] := fun block hblock => by
    obtain ⟨hshared, hdata⟩ := eq_nil_of_mem_emptyBlocks hblock
    rw [Block.bytes, hshared, hdata, List.append_nil]
  obtain ⟨w, hblocks, hafter⟩ := @Stage.exists_after_writeBlocks oldFileAtWork
    { writer := ⟨⟨["cells"]⟩, .empty⟩, isOpen := true } (emptyBlocks n) (nodup_emptyBlocks hn)
    fun block hblock => by rw [(eq_nil_of_mem_emptyBlocks hblock).1]; decide
  have hw : w.builder.blocks = emptyBlocks n := hblocks
  refine ⟨_, by rw [Stage.create_of_ok create_oldFile]; exact hafter, hw,
    publishable_oldFileAtWork ?_⟩
  have hdata : w.builder.data = [] := by
    rw [Builder.data, hw]
    exact List.flatMap_eq_nil_iff.2 hnil
  rw [Builder.length_image, hdata, Builder.blockCount, hw, length_emptyBlocks, Header.size,
    DirectoryEntry.size, Folder.maxFileSize, List.length_nil]
  omega

/-- A block is written under every number, and all are taken.  The writer is finished with success,
and has replaced the file that was there by one that no reader accepts. -/
theorem finish_every_number :
    ∃ w folder₁ s bytes offset, create oldFile ⟨["cells"]⟩ = .ok (w, folder₁) ∧
      s = Run.after Stage.step (Stage.create oldFile ⟨["cells"]⟩)
        ((emptyBlocks (2 ^ 32)).map .writeBlock) ∧
      s.step .blockCount = (.count (2 ^ 32), s) ∧
      (s.step (.finish 0)).1 = .done (.ok ()) ∧
      (s.step (.finish 0)).2.folder.read ⟨["cells"]⟩ = .ok bytes ∧
      Table.ofBytes bytes = .error (.corrupt (.directoryEnd 0 offset bytes.length)) := by
  obtain ⟨h, hafter, hblocks, hpub⟩ := exists_after_emptyBlocks (Nat.le_refl (2 ^ 32))
  have hphase := Run.invariant (Phase.of_create create_oldFile) (fun _ _ step hs => hs.step step)
    ((emptyBlocks (2 ^ 32)).map .writeBlock)
  rw [hafter] at hphase
  obtain ⟨h', folder, heq, hw⟩ := hphase.atWork rfl
  obtain ⟨hh, rfl⟩ := Stage.mk.inj heq
  obtain rfl := Option.some.inj hh
  have htaken := hw.blocks
  rw [hblocks] at htaken
  have hfinish := (hw.finishes_iff 0).2 hpub
  obtain ⟨bytes, hread, -, hrefused⟩ := (hphase.step (.finish 0)).exists_read
    (Run.exists_mem_concat.2 (.inr ⟨0, rfl, hfinish⟩))
  obtain ⟨offset, herror⟩ := hrefused (by
    rw [taken_concat, ← htaken, List.length_append, length_emptyBlocks]
    exact Nat.le_add_right _ _)
  refine ⟨_, _, _, bytes, offset, create_oldFile, rfl, ?_, ?_, ?_, herror⟩
  · rw [hafter, hw.counts, ← htaken, length_emptyBlocks]
  · rw [hafter, hfinish]
  · rw [hafter, hread]

end TableWriter

end CellIndex
