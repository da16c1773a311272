import CellIndex.Proofs.Folder
import CellIndex.Proofs.Table.Image
import CellIndex.Table.Writer
import Mathlib.Data.List.Induction
import Mathlib.Data.List.Nodup

/-!
# Writing and reading a table

Blocks are written to a table by calls that come one after the other, in any order, and a call that
fails leaves the writer as it was (`afterCalls`).  Whatever the calls are, the blocks of the writer
are those of the first calls with their numbers (`mem_blocks_afterCalls_iff`).  So the file of the
table tells what the first calls have written, and nothing of the others or of the order
(**`blocks_written`**).
-/

namespace CellIndex

/-- The block of the first call with its number. -/
def IsFirst (calls : List Block) (block : Block) : Prop :=
  ∃ front back, calls = front ++ block :: back ∧ ∀ earlier ∈ front, earlier.id ≠ block.id

/-- A table that has the blocks of the first calls: its numbers are those of the calls, ascending,
and each of them leads to the block that has been written first. -/
structure Table.Records (t : Table) (calls : List Block) : Prop where
  ascending : t.blockIds.Pairwise (· < ·)
  mem_blockIds : ∀ id, id ∈ t.blockIds ↔ ∃ block ∈ calls, block.id = id
  find_first : ∀ block, IsFirst calls block → t.find? block.id = some block
  find_never : ∀ id, (∀ block ∈ calls, block.id ≠ id) → t.find? id = none

lemma isFirst_iff {calls : List Block} {block : Block} :
    IsFirst calls block ↔ calls.find? (·.id = block.id) = some block := by
  simp [IsFirst, List.find?_eq_some_iff_append]

/-- Among the calls with one number there is a first. -/
lemma exists_isFirst {calls : List Block} {block : Block} (h : block ∈ calls) :
    ∃ first, IsFirst calls first ∧ first.id = block.id := by
  have hsome : (calls.find? (·.id = block.id)).isSome := List.find?_isSome.2 ⟨block, h, by simp⟩
  obtain ⟨first, hfirst⟩ := Option.isSome_iff_exists.1 hsome
  have hid : first.id = block.id := by simpa using List.find?_some hfirst
  refine ⟨first, isFirst_iff.2 ?_, hid⟩
  rw [hid]
  exact hfirst

lemma IsFirst.mem {calls : List Block} {block : Block} (h : IsFirst calls block) :
    block ∈ calls := by
  obtain ⟨front, back, rfl, -⟩ := h
  simp

/-- A look-up depends on the blocks only. -/
lemma Table.find?_congr {t t' : Table} {id : UInt32} (h : t'.blocks = t.blocks) :
    t'.find? id = t.find? id := by
  obtain ⟨header, blocks⟩ := t
  obtain ⟨header', blocks'⟩ := t'
  obtain rfl : blocks' = blocks := h
  rfl

namespace Builder

variable {b b' : Builder} {block : Block}

/-- A block of a builder is found under its number. -/
lemma mem_blocks_iff : block ∈ b.blocks ↔ b.blocks.find? (·.id = block.id) = some block := by
  constructor
  · intro hmem
    have hsome : (b.blocks.find? (·.id = block.id)).isSome :=
      List.find?_isSome.2 ⟨block, hmem, by simp⟩
    obtain ⟨found, hfound⟩ := Option.isSome_iff_exists.1 hsome
    have hid : found.id = block.id := by simpa using List.find?_some hfound
    have heq : found = block :=
      List.inj_on_of_nodup_map b.ids_nodup (List.mem_of_find?_eq_some hfound) hmem hid
    rw [hfound, heq]
  · exact List.mem_of_find?_eq_some

/-- Builders with the same blocks have them in some order each. -/
lemma perm_of_mem_iff (h : ∀ block, block ∈ b'.blocks ↔ block ∈ b.blocks) :
    b'.blocks.Perm b.blocks :=
  (List.perm_ext_iff_of_nodup (.of_map _ b'.ids_nodup) (.of_map _ b.ids_nodup)).2 h

/-- The order of the blocks is forgotten in the table. -/
lemma sortedBlocks_eq_of_perm (h : b'.blocks.Perm b.blocks) : b'.sortedBlocks = b.sortedBlocks := by
  have hperm : b'.sortedBlocks.Perm b.sortedBlocks :=
    ((List.mergeSort_perm _ _).trans h).trans (List.mergeSort_perm _ _).symm
  refine hperm.eq_of_pairwise ?_ b'.pairwise_sortedBlocks b.pairwise_sortedBlocks
  intro x y _ _ hxy hyx
  exact absurd hyx (UInt32.lt_asymm hxy)

lemma length_image_eq_of_perm (h : b'.blocks.Perm b.blocks) (timestamp timestamp' : Int64) :
    (b'.image timestamp').length = (b.image timestamp).length := by
  have hdata : b'.data.length = b.data.length := (h.flatMap_right Block.bytes).length_eq
  rw [length_image, length_image, hdata, blockCount, blockCount, h.length_eq]

end Builder

namespace TableWriter

variable {folder folder₁ : Folder} {target : Path} {w w' : TableWriter} {block : Block}
  {calls calls' : List Block} {id : UInt32} {timestamp : Int64}

/-- The writer after a call, which leaves it as it was if it fails. -/
def afterCall (w : TableWriter) (block : Block) : TableWriter :=
  match w.writeBlock block with
  | .ok w' => w'
  | .error _ => w

/-- The writer after calls that come one after the other. -/
def afterCalls (w : TableWriter) (calls : List Block) : TableWriter := calls.foldl afterCall w

/-- The call that comes behind others succeeds. -/
def Succeeds (w : TableWriter) (front : List Block) (block : Block) : Prop :=
  ∃ w', (w.afterCalls front).writeBlock block = .ok w'

/-- The call that comes behind others fails. -/
def Fails (w : TableWriter) (front : List Block) (block : Block) : Prop :=
  ∃ e, (w.afterCalls front).writeBlock block = .error e

/-! ## One call -/

/-- A number that is there already is refused. -/
lemma writeBlock_of_mem (h : block.id ∈ w.builder.blocks.map Block.id) :
    w.writeBlock block = .error (.invalidArgument (.blockTwice block.id)) := by
  rw [writeBlock, Builder.add, dif_pos h]
  rfl

/-- A new number is taken. -/
lemma exists_writeBlock (hid : block.id ∉ w.builder.blocks.map Block.id)
    (hshared : block.shared.length < 2 ^ 32) : ∃ w', w.writeBlock block = .ok w' := by
  obtain ⟨b, hb⟩ := Builder.exists_add hid hshared
  exact ⟨{ w with builder := b }, by rw [writeBlock, hb]; rfl⟩

lemma blocks_of_writeBlock (h : w.writeBlock block = .ok w') :
    w'.builder.blocks = w.builder.blocks ++ [block] ∧ w'.target = w.target := by
  obtain ⟨b, hb, rfl⟩ := Sequence.map_eq_ok.1 h
  exact ⟨(Builder.add_eq_ok hb).1, rfl⟩

lemma shared_lt_of_writeBlock (h : w.writeBlock block = .ok w') :
    block.shared.length < 2 ^ 32 := by
  obtain ⟨b, hb, -⟩ := Sequence.map_eq_ok.1 h
  exact (Builder.add_eq_ok hb).2

lemma afterCall_of_ok (h : w.writeBlock block = .ok w') : w.afterCall block = w' := by
  rw [afterCall, h]

lemma afterCall_of_error {e : Error} (h : w.writeBlock block = .error e) :
    w.afterCall block = w := by
  rw [afterCall, h]

/-! ## All calls -/

lemma afterCalls_cons (w : TableWriter) (block : Block) (calls : List Block) :
    w.afterCalls (block :: calls) = (w.afterCall block).afterCalls calls := rfl

lemma afterCalls_append (w : TableWriter) (front back : List Block) :
    w.afterCalls (front ++ back) = (w.afterCalls front).afterCalls back := List.foldl_append

/-- Calls do not change where the table is to appear. -/
lemma target_afterCalls (w : TableWriter) (calls : List Block) :
    (w.afterCalls calls).target = w.target := by
  induction calls generalizing w with
  | nil => rfl
  | cons block calls ih =>
    rw [afterCalls_cons, ih]
    cases h : w.writeBlock block with
    | ok w' => rw [afterCall_of_ok h, (blocks_of_writeBlock h).2]
    | error e => rw [afterCall_of_error h]

/-- The blocks after one call more. -/
lemma mem_blocks_afterCall {last : Block} : block ∈ (w.afterCall last).builder.blocks ↔
    block ∈ w.builder.blocks ∨ block = last ∧ ∃ w', w.writeBlock last = .ok w' := by
  cases h : w.writeBlock last with
  | ok w' => rw [afterCall_of_ok h, (blocks_of_writeBlock h).1]; simp
  | error e => rw [afterCall_of_error h]; simp

/-- The blocks after calls are those before them and those of the calls that have succeeded. -/
lemma mem_blocks_afterCalls :
    block ∈ (w.afterCalls calls).builder.blocks ↔ block ∈ w.builder.blocks ∨
      ∃ front back, calls = front ++ block :: back ∧ w.Succeeds front block := by
  -- from the last call on, since each call is judged by those in front of it
  induction calls using List.reverseRecOn with
  | nil => simp [afterCalls]
  | append_singleton calls last ih =>
    have hafter : w.afterCalls (calls ++ [last]) = (w.afterCalls calls).afterCall last :=
      afterCalls_append w calls [last]
    rw [hafter, mem_blocks_afterCall, ih, or_assoc]
    refine or_congr_right ?_
    constructor
    · rintro (⟨front, back, rfl, hok⟩ | ⟨rfl, hok⟩)
      · exact ⟨front, back ++ [last], by simp, hok⟩
      · exact ⟨calls, [], rfl, hok⟩
    · rintro ⟨front, back, hsplit, hok⟩
      rcases List.eq_nil_or_concat back with rfl | ⟨back, last', rfl⟩
      · obtain ⟨rfl, hlast⟩ := List.append_inj' hsplit rfl
        obtain rfl := (List.cons.inj hlast).1
        exact .inr ⟨rfl, hok⟩
      · rw [List.concat_eq_append, ← List.cons_append, ← List.append_assoc] at hsplit
        exact .inl ⟨front, back, (List.append_inj' hsplit rfl).1, hok⟩

/-- Under each number stands what stood there before the calls, or the block of the first call. -/
lemma find?_blocks_afterCalls (hshared : ∀ block ∈ calls, block.shared.length < 2 ^ 32)
    (id : UInt32) :
    (w.afterCalls calls).builder.blocks.find? (·.id = id) =
      (w.builder.blocks ++ calls).find? (·.id = id) := by
  induction calls generalizing w with
  | nil => rw [List.append_nil]; rfl
  | cons block calls ih =>
    have hrest := fun w => @ih w fun b hb => hshared b (List.mem_cons_of_mem _ hb)
    rw [afterCalls_cons, hrest]
    by_cases hid : block.id ∈ w.builder.blocks.map Block.id
    · -- what is found under a number that is refused stands in front of the call
      rw [afterCall_of_error (writeBlock_of_mem hid), List.find?_append, List.find?_append,
        List.find?_cons]
      split
      · next heq =>
        obtain rfl : block.id = id := by simpa using heq
        have hsome : (w.builder.blocks.find? (·.id = block.id)).isSome := by
          simpa [List.find?_isSome] using hid
        obtain ⟨found, hfound⟩ := Option.isSome_iff_exists.1 hsome
        rw [hfound, Option.some_or, Option.some_or]
      · rfl
    · obtain ⟨w', hw'⟩ := exists_writeBlock hid (hshared block List.mem_cons_self)
      rw [afterCall_of_ok hw', (blocks_of_writeBlock hw').1, List.append_assoc,
        List.singleton_append]

/-- The blocks after calls to a new writer are those of the first calls with their numbers. -/
lemma mem_blocks_afterCalls_iff (hw : w.builder.blocks = [])
    (hshared : ∀ block ∈ calls, block.shared.length < 2 ^ 32) :
    block ∈ (w.afterCalls calls).builder.blocks ↔ IsFirst calls block := by
  rw [Builder.mem_blocks_iff, find?_blocks_afterCalls hshared, hw, List.nil_append, isFirst_iff]

/-- A call to a new writer fails exactly if an earlier one with its number has succeeded. -/
lemma fails_iff (hw : w.builder.blocks = []) {front : List Block}
    (hshared : block.shared.length < 2 ^ 32) :
    w.Fails front block ↔ ∃ before earlier between, front = before ++ earlier :: between ∧
      earlier.id = block.id ∧ w.Succeeds before earlier := by
  have hmem : block.id ∈ (w.afterCalls front).builder.blocks.map Block.id ↔
      ∃ before earlier between, front = before ++ earlier :: between ∧
        earlier.id = block.id ∧ w.Succeeds before earlier := by
    simp only [List.mem_map, mem_blocks_afterCalls, hw, List.not_mem_nil, false_or]
    constructor
    · rintro ⟨earlier, ⟨before, between, hsplit, hok⟩, hid⟩
      exact ⟨before, earlier, between, hsplit, hid, hok⟩
    · rintro ⟨before, earlier, between, hsplit, hid, hok⟩
      exact ⟨earlier, ⟨before, between, hsplit, hok⟩, hid⟩
  rw [← hmem]
  constructor
  · rintro ⟨e, he⟩
    by_contra hid
    obtain ⟨w', hw'⟩ := exists_writeBlock hid hshared
    rw [hw'] at he
    cases he
  · intro hid
    exact ⟨_, writeBlock_of_mem hid⟩

/-- A call that fails might as well not have been made. -/
lemma afterCalls_of_fails {front back : List Block} (h : w.Fails front block) :
    w.afterCalls (front ++ back) = w.afterCalls (front ++ block :: back) := by
  obtain ⟨e, he⟩ := h
  rw [afterCalls_append, afterCalls_append, afterCalls_cons, afterCall_of_error he]

/-! ## The file -/

/-- The file of a builder is the table of the calls whose blocks it has. -/
lemma exists_records_of_image {b : Builder}
    (hmem : ∀ block, block ∈ b.blocks ↔ IsFirst calls block)
    (hshared : ∀ block ∈ calls, block.shared.length < 2 ^ 32) (hcount : b.blockCount < 2 ^ 32)
    (hsize : (b.image timestamp).length < 2 ^ 64) :
    ∃ t, Table.ofBytes (b.image timestamp) = .ok t ∧ t.Records calls ∧
      t.blocks = b.sortedBlocks.toArray := by
  have hfirst : ∀ block ∈ b.blocks, block.shared.length < 2 ^ 32 :=
    fun block hb => hshared block ((hmem block).1 hb).mem
  have hsorted : ∀ block, block ∈ b.sortedBlocks ↔ IsFirst calls block :=
    fun block => List.mem_mergeSort.trans (hmem block)
  refine ⟨_, Builder.ofBytes_image hfirst hcount hsize, ⟨?_, ?_, ?_, ?_⟩, rfl⟩
  · exact List.pairwise_map.2 b.pairwise_sortedBlocks
  · intro id
    simp only [Table.blockIds, List.mem_map, hsorted]
    constructor
    · rintro ⟨block, hblock, hid⟩
      exact ⟨block, hblock.mem, hid⟩
    · rintro ⟨block, hblock, rfl⟩
      exact exists_isFirst hblock
  · intro block hblock
    exact Table.find?_of_mem b.pairwise_sortedBlocks ((hsorted block).2 hblock)
  · intro id hid
    exact Table.find?_eq_none fun block hblock => hid block ((hsorted block).1 hblock).mem

/-- **A table gives back what the first calls have written.**  For calls to a new writer:

* a call fails exactly if an earlier call with its number has succeeded, and then the calls without
  it lead to the same writer;
* the file is accepted, its numbers are those of the calls, ascending, and a look-up finds the block
  of the first call with the number, and nothing under a number that no call had;
* other calls with the same first calls, which may come in any order, lead to a file with the same
  numbers in which each look-up has the same result;
* finishing publishes the file, if the target can be a file of that size. -/
theorem blocks_written (hcreate : create folder target = .ok (w, folder₁))
    (hshared : ∀ block ∈ calls, block.shared.length < 2 ^ 32)
    (hcount : (w.afterCalls calls).blockCount < 2 ^ 32)
    (hsize : ((w.afterCalls calls).builder.image timestamp).length < 2 ^ 64) :
    (∀ front block back, calls = front ++ block :: back →
      (w.Fails front block ↔ ∃ before earlier between, front = before ++ earlier :: between ∧
        earlier.id = block.id ∧ w.Succeeds before earlier) ∧
      (w.Fails front block → w.afterCalls (front ++ back) = w.afterCalls calls)) ∧
    (∃ t, Table.ofBytes ((w.afterCalls calls).builder.image timestamp) = .ok t ∧
      t.Records calls ∧
      ∀ calls' timestamp', (∀ block ∈ calls', block.shared.length < 2 ^ 32) →
        (∀ block, IsFirst calls' block ↔ IsFirst calls block) →
        ∃ t', Table.ofBytes ((w.afterCalls calls').builder.image timestamp') = .ok t' ∧
          t'.blockIds = t.blockIds ∧ ∀ id, t'.find? id = t.find? id) ∧
    ∀ rest : Folder,
      rest.Publishable target ((w.afterCalls calls).builder.image timestamp) →
      ∃ folder₂, (w.afterCalls calls).finish rest timestamp = (.ok (), folder₂) ∧
        folder₂.read target = .ok ((w.afterCalls calls).builder.image timestamp) := by
  obtain ⟨folder', -, heq⟩ := Sequence.map_eq_ok.1 hcreate
  obtain ⟨rfl, -⟩ := Prod.mk.inj heq
  have hmem := fun block => @mem_blocks_afterCalls_iff ⟨target, .empty⟩ block calls rfl hshared
  refine ⟨?_, ?_, ?_⟩
  · rintro front block back rfl
    exact ⟨fails_iff rfl (hshared block (by simp)), afterCalls_of_fails⟩
  · obtain ⟨t, ht, hrecords, hblocks⟩ := exists_records_of_image hmem hshared hcount hsize
    refine ⟨t, ht, hrecords, fun calls' timestamp' hshared' hsame => ?_⟩
    have hmem' := fun block => @mem_blocks_afterCalls_iff ⟨target, .empty⟩ block calls' rfl hshared'
    have hperm : (afterCalls ⟨target, .empty⟩ calls').builder.blocks.Perm
        (afterCalls ⟨target, .empty⟩ calls).builder.blocks :=
      Builder.perm_of_mem_iff fun block =>
        (hmem' block).trans ((hsame block).trans (hmem block).symm)
    have hlength := Builder.length_image_eq_of_perm hperm timestamp timestamp'
    obtain ⟨t', ht', -, hblocks'⟩ := @exists_records_of_image calls' timestamp' _ hmem' hshared'
      (Nat.lt_of_le_of_lt (Nat.le_of_eq hperm.length_eq) hcount)
      (Nat.lt_of_le_of_lt (Nat.le_of_eq hlength) hsize)
    rw [Builder.sortedBlocks_eq_of_perm hperm, ← hblocks] at hblocks'
    refine ⟨t', ht', ?_, fun id => Table.find?_congr hblocks'⟩
    rw [Table.blockIds, Table.blockIds, hblocks']
  · intro rest hrest
    have htarget : (afterCalls ⟨target, .empty⟩ calls).target = target := target_afterCalls _ _
    have hpublish := Folder.publish_of_publishable hrest
    refine ⟨_, ?_, (Folder.read_of_publish hpublish).1⟩
    rw [finish, htarget, hpublish]

/-- Four calls, of which the third has the number of the first. -/
def sampleCalls : List Block := [⟨9, [1], [2, 3]⟩, ⟨0, [], [4]⟩, ⟨9, [5], []⟩, ⟨5, [6], []⟩]

/-- The third call fails, and the first one is read back under its number. -/
theorem blocks_written_repeated_id :
    ∃ w folder₁ folder₂ bytes t, create .empty ⟨["cells"]⟩ = .ok (w, folder₁) ∧
      w.Fails [⟨9, [1], [2, 3]⟩, ⟨0, [], [4]⟩] ⟨9, [5], []⟩ ∧
      (w.afterCalls sampleCalls).finish folder₁ 0 = (.ok (), folder₂) ∧
      folder₂.read ⟨["cells"]⟩ = .ok bytes ∧ Table.ofBytes bytes = .ok t ∧
      t.find? 9 = some ⟨9, [1], [2, 3]⟩ ∧ t.find? 7 = none := by
  have hreserve := @Folder.reserve_empty ⟨["cells"]⟩ (by decide +kernel) (by decide +kernel)
  have hcreate : create .empty ⟨["cells"]⟩ =
      .ok (⟨⟨["cells"]⟩, .empty⟩, Folder.empty.put (Path.temporary ⟨["cells"]⟩) (.file [])) := by
    rw [create, hreserve]
    rfl
  have hlength : ((afterCalls ⟨⟨["cells"]⟩, .empty⟩ sampleCalls).builder.image 0).length = 141 := by
    rw [Builder.length_image]
    decide +kernel
  obtain ⟨hfails, ⟨t, ht, hrecords, -⟩, hpublish⟩ := @blocks_written _ _ _ _ sampleCalls 0 hcreate
    (by decide) (by decide +kernel) (by rw [hlength]; decide)
  obtain ⟨folder₂, hfinish, hread⟩ := hpublish
    (Folder.empty.put (Path.temporary ⟨["cells"]⟩) (.file []))
    ⟨by decide +kernel, by decide +kernel, by decide +kernel, by rw [hlength]; decide⟩
  refine ⟨_, _, folder₂, _, t, hcreate, ?_, hfinish, hread, ht, ?_, ?_⟩
  · refine ((hfails _ _ _ rfl).1).2 ⟨[], _, _, rfl, rfl, exists_writeBlock ?_ (by decide)⟩
    exact List.not_mem_nil
  · exact hrecords.find_first _ ⟨[], _, rfl, by simp⟩
  · exact hrecords.find_never 7 (by decide)

end TableWriter

end CellIndex
