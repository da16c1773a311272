import CellIndex.Proofs.RangeFile.WellFormed
import CellIndex.Proofs.Run

/-!
# When a range file appears

The life of a writer is a sequence of steps: batches are written, and at last the writer is closed
or dropped, after which nothing happens any more (`Stage.step`).  At any time it is in one of four
phases: it works, it has failed, it is gone, or its file has been published (`Phase`).  Each step
leads from phase to phase (`Phase.step`), and the phase says what there is in the folder, what a
step answers, and what has been answered before.

So a file appears at the target only when a writer is closed that has taken all its batches
(**`lawful_after`**).
-/

namespace CellIndex.RangeWriter

/-- What is done with a writer. -/
inductive Step
  /-- A batch is written. -/
  | write (ranges : List CellRange)
  /-- The writer is closed. -/
  | close (timestamp : Int64)
  /-- The writer is dropped. -/
  | drop

/-- The answer to a step, if it has one. -/
abbrev Answer := Option (Except Error Unit)

/-- A writer, unless it has been closed or dropped, and the folder. -/
structure Stage where
  /-- The writer, as long as there is one. -/
  writer : Option RangeWriter
  /-- The folder as it is now. -/
  folder : Folder

/-- A step.  Once the writer is gone, nothing happens any more. -/
def Stage.step (s : Stage) (step : Step) : Answer × Stage :=
  match s.writer, step with
  | none, _ => (none, s)
  | some w, .write ranges =>
    let (answer, w', folder) := w.write s.folder ranges
    (some answer, ⟨some w', folder⟩)
  | some w, .close timestamp =>
    let (answer, folder) := w.close s.folder timestamp
    (some answer, ⟨none, folder⟩)
  | some w, .drop => (none, ⟨none, w.drop s.folder⟩)

/-- Some batch has been refused. -/
def Failed (history : List (Step × Answer)) : Prop :=
  ∃ ranges e, (Step.write ranges, some (.error e)) ∈ history

/-- All batches have been taken. -/
def AllTaken (history : List (Step × Answer)) : Prop :=
  ∀ ranges answer, (Step.write ranges, answer) ∈ history → answer = some (.ok ())

/-- The writer has been closed with success. -/
def Published (history : List (Step × Answer)) : Prop :=
  ∃ timestamp, (Step.close timestamp, some (.ok ())) ∈ history

/-- What holds at any time in the life of a writer, after steps with the answers `history`. -/
structure Lawful (initial : Folder) (target : Path) (history : List (Step × Answer)) (s : Stage) :
    Prop where
  /-- The temporary file exists exactly while the writer is open and no batch has been refused. -/
  temporary_iff : (s.folder.get? target.temporary).isSome ↔ s.writer.isSome ∧ ¬ Failed history
  /-- Before a close succeeds, the target and all other files are what they were. -/
  kept : ¬ Published history → s.folder.get? target = initial.get? target ∧
    initial.Keeps target s.folder
  /-- After a failure everything is refused. -/
  refuses : s.writer.isSome → Failed history → ∀ ranges timestamp,
    (s.step (.write ranges)).1 = some (.error (.invalidArgument .writerUnusable)) ∧
      (s.step (.close timestamp)).1 = some (.error (.invalidArgument .writerUnusable))
  /-- A close succeeds only if all batches have been taken. -/
  taken : ∀ timestamp, (s.step (.close timestamp)).1 = some (.ok ()) → AllTaken history
  /-- If no batch has been refused, only the target can make a close fail, and a close that succeeds
  leaves the finished file there. -/
  closes : ∀ w ∈ s.writer, ¬ Failed history → ∃ b t, w.builder = some b ∧ b.finish = .ok t ∧
    ∀ timestamp,
      ((s.step (.close timestamp)).1 = some (.ok ()) ↔
        s.folder.Publishable target (t.image timestamp)) ∧
      ((s.step (.close timestamp)).1 = some (.ok ()) →
        (s.step (.close timestamp)).2.folder.read target = .ok (t.image timestamp))
  /-- A close that fails, and a drop, leave the target as it was and no temporary file. -/
  given_up : s.writer.isSome → ∀ step, (∀ ranges, step ≠ .write ranges) →
    (s.step step).1 ≠ some (.ok ()) →
      (s.step step).2.folder.get? target = initial.get? target ∧
        (s.step step).2.folder.get? target.temporary = none

/-- Where a writer is in its life. -/
inductive Phase (f : Format) (target : Path) (initial : Folder) (history : List (Step × Answer)) :
    Stage → Prop
  /-- All batches have been taken. -/
  | working {w : RangeWriter} {groups : List PrefixGroup} {folder : Folder}
      (holds : Holds f target w groups) (taken : AllTaken history)
      (unpublished : ¬ Published history) (keeps : initial.Keeps target folder)
      (temporary : (folder.get? target.temporary).isSome) :
      Phase f target initial history ⟨some w, folder⟩
  /-- A batch has been refused. -/
  | failed {w : RangeWriter} {folder : Folder} (unusable : w.builder = none)
      (failed : Failed history) (unpublished : ¬ Published history)
      (keeps : initial.Keeps target folder) (temporary : folder.get? target.temporary = none) :
      Phase f target initial history ⟨some w, folder⟩
  /-- The writer is gone, and has published nothing. -/
  | gone {folder : Folder} (unpublished : ¬ Published history)
      (keeps : initial.Keeps target folder) (temporary : folder.get? target.temporary = none) :
      Phase f target initial history ⟨none, folder⟩
  /-- The writer is gone, and has published its file. -/
  | published {folder : Folder} (published : Published history)
      (temporary : folder.get? target.temporary = none) :
      Phase f target initial history ⟨none, folder⟩

variable {f : Format} {target : Path} {initial folder folder₁ : Folder} {w : RangeWriter}
  {groups : List PrefixGroup} {history : List (Step × Answer)} {s : Stage} {last : Step}
  {answer : Answer}

/-! ## Histories -/

lemma AllTaken.not_failed (h : AllTaken history) : ¬ Failed history := by
  rintro ⟨ranges, e, hmem⟩
  have hok := h ranges _ hmem
  cases hok

lemma allTaken_concat : AllTaken (history ++ [(last, answer)]) ↔
    AllTaken history ∧ ∀ ranges, last = .write ranges → answer = some (.ok ()) := by
  simp only [AllTaken, List.mem_append, List.mem_singleton, Prod.mk.injEq]
  constructor
  · intro h
    exact ⟨fun ranges a ha => h ranges a (.inl ha),
      fun ranges hr => h ranges _ (.inr ⟨hr.symm, rfl⟩)⟩
  · rintro ⟨h, hlast⟩ ranges a (ha | ⟨hr, rfl⟩)
    · exact h ranges a ha
    · exact hlast ranges hr.symm

lemma Failed.concat (h : Failed history) (x : Step × Answer) : Failed (history ++ [x]) := by
  obtain ⟨ranges, e, hmem⟩ := h
  exact ⟨ranges, e, List.mem_append_left _ hmem⟩

/-! ## What a writer does in its phase -/

/-- A batch is taken, or it is refused and the temporary file removed. -/
lemma Holds.write_cases (h : Holds f target w groups) (folder : Folder) (ranges : List CellRange) :
    (∃ w' groups', w.write folder ranges = (.ok (), w', folder) ∧ Holds f target w' groups') ∨
      ∃ e w', w.write folder ranges = (.error e, w', folder.abandon target) ∧
        w'.builder = none := by
  obtain ⟨b, hb, -⟩ := h.builder
  cases hadd : b.add ranges with
  | ok b' =>
    have hwrite : w.write folder ranges = (.ok (), { w with builder := some b' }, folder) := by
      simp only [write, hb, hadd]
    obtain ⟨groups', hw', -⟩ := exists_holds_of_write h hwrite
    exact .inl ⟨_, _, hwrite, hw'⟩
  | error e =>
    refine .inr ⟨e, { w with builder := none }, ?_, rfl⟩
    simp only [write, hb, hadd, h.target_eq]

lemma Holds.drop_eq (h : Holds f target w groups) (folder : Folder) :
    w.drop folder = folder.abandon target := by
  obtain ⟨b, hb, -⟩ := h.builder
  simp only [drop, hb, h.target_eq]

lemma write_of_failed (h : w.builder = none) (folder : Folder) (ranges : List CellRange) :
    w.write folder ranges = (.error unusable, w, folder) := by
  simp only [write, h]

lemma close_of_failed (h : w.builder = none) (folder : Folder) (timestamp : Int64) :
    w.close folder timestamp = (.error unusable, folder) := by
  simp only [close, h]

lemma drop_of_failed (h : w.builder = none) (folder : Folder) : w.drop folder = folder := by
  simp only [drop, h]

/-- A step of a failed writer, or of none, changes nothing in the folder, and does not succeed. -/
lemma Stage.step_of_failed (h : ∀ w ∈ s.writer, w.builder = none) (step : Step) :
    (s.step step).2.folder = s.folder ∧ (∀ w ∈ (s.step step).2.writer, w.builder = none) ∧
      (s.step step).1 ≠ some (.ok ()) := by
  obtain ⟨writer, folder⟩ := s
  cases writer with
  | none => exact ⟨rfl, by simp [Stage.step], by simp [Stage.step]⟩
  | some w =>
    have hw : w.builder = none := h w rfl
    cases step with
    | write ranges => simp [Stage.step, write_of_failed hw, hw]
    | close timestamp => simp [Stage.step, close_of_failed hw]
    | drop => simp [Stage.step, drop_of_failed hw]

/-- Whatever is done with a failed writer, the folder stays as it is and nothing is published. -/
lemma Stage.after_of_failed (h : ∀ w ∈ s.writer, w.builder = none) (steps : List Step) :
    (Run.after Stage.step s steps).folder = s.folder ∧
      ¬ Published (Run.history Stage.step s steps) := by
  induction steps generalizing s with
  | nil => exact ⟨rfl, by simp [Published, Run.history]⟩
  | cons step steps ih =>
    obtain ⟨hfolder, hwriter, hanswer⟩ := Stage.step_of_failed h step
    obtain ⟨hafter, hpublished⟩ := ih hwriter
    refine ⟨hafter.trans hfolder, ?_⟩
    rintro ⟨timestamp, hmem⟩
    rcases List.mem_cons.1 hmem with heq | hmem
    · exact hanswer (Prod.mk.inj heq).2.symm
    · exact hpublished ⟨timestamp, hmem⟩

/-! ## From phase to phase -/

/-- A step of a working writer. -/
lemma Phase.step_of_working (holds : Holds f target w groups) (taken : AllTaken history)
    (unpublished : ¬ Published history) (keeps : initial.Keeps target folder)
    (temporary : (folder.get? target.temporary).isSome) (step : Step) :
    Phase f target initial (history ++ [(step, (Stage.step ⟨some w, folder⟩ step).1)])
      (Stage.step ⟨some w, folder⟩ step).2 := by
  cases step with
  | write ranges =>
    have hopen (answer : Answer) : ¬ Published (history ++ [(.write ranges, answer)]) :=
      Run.not_exists_mem_concat unpublished (by simp)
    rcases holds.write_cases folder ranges with ⟨w', groups', hwrite, hw'⟩ | ⟨e, w', hwrite, hw'⟩
    · simp only [Stage.step, hwrite]
      exact .working hw' (allTaken_concat.2 ⟨taken, fun _ _ => rfl⟩) (hopen _) keeps temporary
    · simp only [Stage.step, hwrite]
      exact .failed hw' ⟨ranges, e, by simp⟩ (hopen _) keeps.abandon
        (folder.get?_temporary_abandon target)
  | close timestamp =>
    obtain ⟨b, t, -, -, hclose⟩ := holds.exists_close
    simp only [Stage.step, hclose]
    by_cases hpub : folder.Publishable target (t.image timestamp)
    · refine .published (Run.exists_mem_concat.2 (.inr ⟨timestamp, rfl, ?_⟩))
        (folder.get?_temporary_publish target _)
      rw [Folder.publish_of_publishable hpub]
    · rw [Folder.publish_of_not_publishable hpub]
      exact .gone (Run.not_exists_mem_concat unpublished (by simp)) keeps.abandon
        (folder.get?_temporary_abandon target)
  | drop =>
    simp only [Stage.step, holds.drop_eq]
    exact .gone (Run.not_exists_mem_concat unpublished (by simp)) keeps.abandon
      (folder.get?_temporary_abandon target)

/-- A step of a writer that has failed changes nothing. -/
lemma Phase.step_of_failed (unusable : w.builder = none) (failed : Failed history)
    (unpublished : ¬ Published history) (keeps : initial.Keeps target folder)
    (temporary : folder.get? target.temporary = none) (step : Step) :
    Phase f target initial (history ++ [(step, (Stage.step ⟨some w, folder⟩ step).1)])
      (Stage.step ⟨some w, folder⟩ step).2 := by
  cases step with
  | write ranges =>
    simp only [Stage.step, write_of_failed unusable]
    exact .failed unusable (failed.concat _) (Run.not_exists_mem_concat unpublished (by simp)) keeps
      temporary
  | close timestamp =>
    simp only [Stage.step, close_of_failed unusable]
    exact .gone (Run.not_exists_mem_concat unpublished (by simp)) keeps temporary
  | drop =>
    simp only [Stage.step, drop_of_failed unusable]
    exact .gone (Run.not_exists_mem_concat unpublished (by simp)) keeps temporary

/-- Every step leads to a phase again. -/
lemma Phase.step (h : Phase f target initial history s) (step : Step) :
    Phase f target initial (history ++ [(step, (s.step step).1)]) (s.step step).2 := by
  cases h with
  | working holds taken unpublished keeps temporary =>
    exact Phase.step_of_working holds taken unpublished keeps temporary step
  | failed unusable failed unpublished keeps temporary =>
    exact Phase.step_of_failed unusable failed unpublished keeps temporary step
  | gone unpublished keeps temporary =>
    exact .gone (Run.not_exists_mem_concat unpublished (by simp [Stage.step])) keeps temporary
  | published published temporary =>
    exact .published (Run.exists_mem_concat.2 (.inl published)) temporary

/-- A new writer works. -/
lemma Phase.of_create (h : create folder target f = .ok (w, folder₁)) :
    Phase f target folder [] ⟨some w, folder₁⟩ := by
  obtain ⟨folder', hreserve, heq⟩ := Sequence.map_eq_ok.1 h
  obtain ⟨-, rfl⟩ := Prod.mk.inj heq
  obtain ⟨hkeeps, htemporary⟩ := Folder.keeps_of_reserve hreserve
  exact .working (holds_of_create h) (by simp [AllTaken]) (by simp [Published]) hkeeps htemporary

/-- After any steps a writer is in one of its phases. -/
lemma Phase.after (h : Phase f target initial [] s) (steps : List Step) :
    Phase f target initial (Run.history Stage.step s steps) (Run.after Stage.step s steps) :=
  Run.invariant h (fun _ _ step hs => hs.step step) steps

/-! ## What the phase says -/

lemma Phase.temporary_iff (h : Phase f target initial history s) :
    (s.folder.get? target.temporary).isSome ↔ s.writer.isSome ∧ ¬ Failed history := by
  cases h with
  | working holds taken unpublished keeps temporary => simp [temporary, taken.not_failed]
  | failed unusable failed unpublished keeps temporary => simp [temporary, failed]
  | gone unpublished keeps temporary => simp [temporary]
  | published published temporary => simp [temporary]

lemma Phase.keeps (h : Phase f target initial history s) (hp : ¬ Published history) :
    initial.Keeps target s.folder := by
  cases h with
  | working holds taken unpublished keeps temporary => exact keeps
  | failed unusable failed unpublished keeps temporary => exact keeps
  | gone unpublished keeps temporary => exact keeps
  | published published temporary => exact absurd published hp

/-- As long as there is a writer, nothing has been published. -/
lemma Phase.unpublished (h : Phase f target initial history s) (hopen : s.writer.isSome) :
    ¬ Published history := by
  cases h with
  | working holds taken unpublished keeps temporary => exact unpublished
  | failed unusable failed unpublished keeps temporary => exact unpublished
  | gone unpublished keeps temporary => simp at hopen
  | published published temporary => simp at hopen

lemma Phase.refuses (h : Phase f target initial history s) (hopen : s.writer.isSome)
    (hfailed : Failed history) (ranges : List CellRange) (timestamp : Int64) :
    (s.step (.write ranges)).1 = some (.error unusable) ∧
      (s.step (.close timestamp)).1 = some (.error unusable) := by
  cases h with
  | working holds taken unpublished keeps temporary => exact absurd hfailed taken.not_failed
  | failed unusable failed unpublished keeps temporary =>
    simp only [Stage.step, write_of_failed unusable, close_of_failed unusable, and_self]
  | gone unpublished keeps temporary => simp at hopen
  | published published temporary => simp at hopen

lemma Phase.taken (h : Phase f target initial history s) {timestamp : Int64}
    (hok : (s.step (.close timestamp)).1 = some (.ok ())) : AllTaken history := by
  cases h with
  | working holds taken unpublished keeps temporary => exact taken
  | failed unusable failed unpublished keeps temporary =>
    simp [Stage.step, close_of_failed unusable] at hok
  | gone unpublished keeps temporary => simp [Stage.step] at hok
  | published published temporary => simp [Stage.step] at hok

/-- A working writer closes if its target can be a file. -/
lemma Phase.closes (h : Phase f target initial history s) (hw : w ∈ s.writer)
    (hfailed : ¬ Failed history) : ∃ b t, w.builder = some b ∧ b.finish = .ok t ∧
      ∀ timestamp,
        ((s.step (.close timestamp)).1 = some (.ok ()) ↔
          s.folder.Publishable target (t.image timestamp)) ∧
        ((s.step (.close timestamp)).1 = some (.ok ()) →
          (s.step (.close timestamp)).2.folder.read target = .ok (t.image timestamp)) := by
  cases h with
  | @working w' groups folder holds taken unpublished keeps temporary =>
    obtain rfl : w' = w := Option.some.inj hw
    obtain ⟨b, t, hb, hfinish, hclose⟩ := holds.exists_close
    refine ⟨b, t, hb, hfinish, fun timestamp => ?_⟩
    simp only [Stage.step, hclose]
    by_cases hpub : folder.Publishable target (t.image timestamp)
    · have hpublish := Folder.publish_of_publishable hpub
      rw [hpublish]
      exact ⟨iff_of_true rfl hpub, fun _ => (Folder.read_of_publish hpublish).1⟩
    · rw [Folder.publish_of_not_publishable hpub]
      exact ⟨iff_of_false (by simp) hpub, by simp⟩
  | failed unusable failed unpublished keeps temporary => exact absurd failed hfailed
  | gone unpublished keeps temporary => cases hw
  | published published temporary => cases hw

/-- After a close or a drop there is no writer. -/
lemma Stage.writer_step_of_ne (s : Stage) (hlast : ∀ ranges, last ≠ .write ranges) :
    (s.step last).2.writer = none := by
  obtain ⟨writer, folder⟩ := s
  cases writer with
  | none => rfl
  | some w =>
    cases last with
    | write ranges => exact absurd rfl (hlast ranges)
    | close timestamp => rfl
    | drop => rfl

lemma Phase.lawful (h : Phase f target initial history s) : Lawful initial target history s where
  temporary_iff := h.temporary_iff
  kept hp := ⟨(h.keeps hp).target_eq, h.keeps hp⟩
  refuses := h.refuses
  taken _ := h.taken
  closes _ := h.closes
  given_up hopen step hstep hanswer := by
    have hnext := h.step step
    have hp : ¬ Published (history ++ [(step, (s.step step).1)]) :=
      Run.not_exists_mem_concat (h.unpublished hopen) fun _ _ => hanswer
    refine ⟨(hnext.keeps hp).target_eq, ?_⟩
    have hiff := hnext.temporary_iff
    rw [s.writer_step_of_ne hstep] at hiff
    simpa using hiff

/-- **A file appears only when a writer is closed that has taken all its batches.**  Whatever is
done with a new writer, its temporary file and its target are at any time as they should be, and
after a failure it refuses everything. -/
theorem lawful_after (hcreate : create folder target f = .ok (w, folder₁)) (steps : List Step) :
    Lawful folder target (Run.history Stage.step ⟨some w, folder₁⟩ steps)
      (Run.after Stage.step ⟨some w, folder₁⟩ steps) :=
  ((Phase.of_create hcreate).after steps).lawful

/-- A reversed range is refused beside a file that is there already, which stays as it was, and then
nothing more can be written. -/
theorem lawful_after_reversed_range :
    ∃ w folder₁ s,
      create (Folder.empty.put ⟨["cells"]⟩ (.file [1])) ⟨["cells"]⟩ sampleFormat =
          .ok (w, folder₁) ∧
        s = Run.after Stage.step ⟨some w, folder₁⟩ [.write [sampleRange 1 0 7]] ∧
        s.folder.get? ⟨["cells"]⟩ = some (.file [1]) ∧
        s.folder.get? (Path.temporary ⟨["cells"]⟩) = none ∧
        (s.step (.write [])).1 = some (.error (.invalidArgument .writerUnusable)) ∧
        (s.step (.close 0)).1 = some (.error (.invalidArgument .writerUnusable)) := by
  obtain ⟨w, folder₁, hcreate⟩ : ∃ w folder₁,
      create (Folder.empty.put ⟨["cells"]⟩ (.file [1])) ⟨["cells"]⟩ sampleFormat =
        .ok (w, folder₁) := by
    rw [create, Folder.reserve, if_neg (by decide +kernel), if_neg (by decide +kernel),
      if_neg (by decide +kernel)]
    exact ⟨_, _, rfl⟩
  have hbad : ¬ WellFormed sampleFormat [] [sampleRange 1 0 7] := by
    rw [← RangeBuilder.checkBatch_eq_ok_iff_wellFormed]
    decide +kernel
  obtain ⟨e, w', folder', hwrite, -⟩ :=
    (holds_of_create hcreate).exists_write_eq_error folder₁ hbad
  have hlawful := lawful_after hcreate [.write [sampleRange 1 0 7]]
  simp only [Run.history, Run.after, List.foldl_cons, List.foldl_nil, Stage.step,
    hwrite] at hlawful
  have hfailed : Failed [(Step.write [sampleRange 1 0 7], some (.error e))] :=
    ⟨[sampleRange 1 0 7], e, by simp⟩
  obtain ⟨hnoWrite, hnoClose⟩ := hlawful.refuses rfl hfailed [] 0
  refine ⟨w, folder₁, ⟨some w', folder'⟩, hcreate, ?_, ?_, ?_, hnoWrite, hnoClose⟩
  · simp only [Run.after, List.foldl_cons, List.foldl_nil, Stage.step, hwrite]
  · rw [(hlawful.kept (by simp [Published])).1]
    decide +kernel
  · simpa [hfailed] using hlawful.temporary_iff

end CellIndex.RangeWriter
