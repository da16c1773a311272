import CellIndex.Proofs.Search
import CellIndex.Proofs.Sequence
import CellIndex.Proofs.Table.Record
import CellIndex.Table.Basic
import CellIndex.Table.Builder
import Mathlib.Data.Fintype.Card

/-!
# Tables are read back

The image of a builder is read as the table of its blocks in the order of their numbers
(`ofBytes_image`), if every field of the directory can say its number: shared data shorter than
`2 ^ 32` bytes, fewer than `2 ^ 32` blocks, and a file shorter than `2 ^ 64` bytes.  There are never
more than `2 ^ 32` blocks, and if there are as many, the header counts none of them and the file is
refused (`ofBytes_image_of_full`).  A look-up in a table whose blocks stand in order finds the block
with the number, if there is one (`find?_of_mem`, `find?_eq_none`).
-/

namespace CellIndex

open Bytes (slice slice_at)
open Sequence

lemma Block.length_bytes (block : Block) :
    block.bytes.length = block.shared.length + block.data.length := List.length_append

namespace DirectoryEntry

variable {limit : Nat} {previous : Option UInt32} {entries : List DirectoryEntry}
  {e : DirectoryEntry}

/-- One entry is checked after the other. -/
lemma checkFrom_cons : checkFrom limit previous (e :: entries) =
    if ¬ e.InBounds limit then .error (.corrupt (.blockOutside e.blockId))
    else match previous.filter (e.blockId ≤ ·) with
      | some id => .error (.corrupt (.directoryOrder e.blockId id))
      | none => checkFrom limit (some e.blockId) entries := by
  cases previous with
  | none => rfl
  | some id =>
    rw [checkFrom]
    by_cases hid : e.blockId ≤ id
    · simp [hid, Option.filter]
    · simp [hid, Option.filter]

/-- What passes the check lies in bounds. -/
lemma inBounds_of_checkFrom (h : checkFrom limit previous entries = .ok ()) :
    ∀ e ∈ entries, e.InBounds limit := by
  induction entries generalizing previous with
  | nil => simp
  | cons e entries ih =>
    rw [checkFrom_cons] at h
    split at h
    · cases h
    · next hin =>
      split at h
      · cases h
      · rintro e' (_ | ⟨_, he'⟩)
        · exact not_not.1 hin
        · exact ih h e' he'

/-- What passes the check ascends. -/
lemma pairwise_of_checkFrom (h : checkFrom limit previous entries = .ok ()) :
    entries.Pairwise (·.blockId < ·.blockId) ∧ ∀ id ∈ previous, ∀ e ∈ entries, id < e.blockId := by
  induction entries generalizing previous with
  | nil => simp
  | cons e entries ih =>
    rw [checkFrom_cons] at h
    split at h
    · cases h
    · split at h
      · cases h
      · next hnone =>
        obtain ⟨hpair, hlt⟩ := ih h
        have hfirst := hlt e.blockId rfl
        refine ⟨List.pairwise_cons.2 ⟨hfirst, hpair⟩, fun id hid e' he' => ?_⟩
        have hprev : id < e.blockId := by
          obtain rfl := Option.mem_def.1 hid
          simpa using hnone
        rcases List.mem_cons.1 he' with rfl | he'
        · exact hprev
        · exact UInt32.lt_trans hprev (hfirst e' he')

/-- The entries of a directory pass the check if they lie in bounds and ascend. -/
lemma checkFrom_eq_ok (hb : ∀ e ∈ entries, e.InBounds limit)
    (hp : entries.Pairwise (·.blockId < ·.blockId))
    (hprev : ∀ id ∈ previous, ∀ e ∈ entries, id < e.blockId) :
    checkFrom limit previous entries = .ok () := by
  induction entries generalizing previous with
  | nil => rfl
  | cons e entries ih =>
    obtain ⟨he, hrest⟩ := List.pairwise_cons.1 hp
    have hfresh : previous.filter (e.blockId ≤ ·) = none := by
      refine Option.filter_eq_none_iff.2 fun id hid => ?_
      simpa using hprev id hid e List.mem_cons_self
    rw [checkFrom_cons, if_neg (not_not_intro (hb e List.mem_cons_self)), hfresh]
    refine ih (fun e' he' => hb e' (List.mem_cons_of_mem _ he')) hrest ?_
    rintro _ ⟨⟩
    exact he

end DirectoryEntry

namespace Builder

variable {b : Builder} {timestamp : Int64}

/-- A block that is accepted comes after the others. -/
lemma add_eq_ok {b' : Builder} {block : Block} (h : b.add block = .ok b') :
    b'.blocks = b.blocks ++ [block] ∧ block.shared.length < 2 ^ 32 := by
  rw [add] at h
  split at h
  · exact absurd h (by simp)
  · split at h
    · exact absurd h (by simp)
    · next hl =>
      obtain rfl := Except.ok.inj h
      exact ⟨rfl, Nat.not_le.1 hl⟩

/-- A block is added if its number is new and its shared data is not too long. -/
lemma exists_add {block : Block} (hid : block.id ∉ b.blocks.map Block.id)
    (hshared : block.shared.length < 2 ^ 32) : ∃ b', b.add block = .ok b' := by
  rw [add, dif_neg hid, if_neg (Nat.not_le.2 hshared)]
  exact ⟨_, rfl⟩

/-- The blocks in the order of their numbers. -/
def sortedBlocks (b : Builder) : List Block := b.blocks.mergeSort fun x y => x.id ≤ y.id

lemma pairwise_sortedBlocks (b : Builder) : b.sortedBlocks.Pairwise (·.id < ·.id) := by
  have hle : b.sortedBlocks.Pairwise fun x y => decide (x.id ≤ y.id) = true := by
    refine List.pairwise_mergeSort ?_ ?_ b.blocks
    · intro x y z hxy hyz
      exact decide_eq_true (UInt32.le_trans (of_decide_eq_true hxy) (of_decide_eq_true hyz))
    · intro x y
      simpa using UInt32.le_total x.id y.id
  have hperm : (b.sortedBlocks.map Block.id).Perm (b.blocks.map Block.id) :=
    (List.mergeSort_perm _ _).map _
  have hne : b.sortedBlocks.Pairwise fun x y => x.id ≠ y.id :=
    List.pairwise_map.1 (hperm.nodup_iff.2 b.ids_nodup)
  refine (hle.and hne).imp fun {x y} h => ?_
  exact UInt32.lt_of_le_of_ne (of_decide_eq_true h.1) h.2

/-! ## The directory of an image -/

lemma length_entriesFrom (offset : Nat) (blocks : List Block) :
    (entriesFrom offset blocks).length = blocks.length := by
  induction blocks generalizing offset with
  | nil => rfl
  | cons block blocks ih => rw [entriesFrom, List.length_cons, ih, List.length_cons]

/-- The entries lead to the blocks, in whatever surroundings these stand. -/
lemma map_block_entriesFrom {bytes front back : Bytes} {blocks : List Block}
    (hb : bytes = front ++ (blocks.flatMap Block.bytes ++ back))
    (hs : ∀ block ∈ blocks, block.shared.length < 2 ^ 32)
    (hl : front.length + (blocks.flatMap Block.bytes).length < 2 ^ 64) :
    (entriesFrom front.length blocks).map (·.block bytes) = blocks := by
  induction blocks generalizing front with
  | nil => rfl
  | cons block blocks ih =>
    rw [List.flatMap_cons, List.length_append, Block.length_bytes] at hl
    rw [List.flatMap_cons, Block.bytes, List.append_assoc, List.append_assoc] at hb
    have hshared : block.shared.length % 2 ^ 32 = block.shared.length :=
      Nat.mod_eq_of_lt (hs block List.mem_cons_self)
    have hfront : front.length % 2 ^ 64 = front.length := Nat.mod_eq_of_lt (by omega)
    have hdata : block.data.length % 2 ^ 64 = block.data.length := Nat.mod_eq_of_lt (by omega)
    have hread : slice bytes front.length block.shared.length = block.shared ∧
        slice bytes (front.length + block.shared.length) block.data.length = block.data := by
      constructor
      · rw [hb, slice_at rfl rfl]
      · rw [hb, ← List.append_assoc front, slice_at (by simp) rfl]
    -- the block joins what stands in front of the blocks that follow it
    have hrest := @ih (front ++ block.bytes)
      (by rw [hb, Block.bytes]; simp only [List.append_assoc])
      (fun b' hb' => hs b' (List.mem_cons_of_mem _ hb'))
      (by rw [List.length_append, Block.length_bytes]; omega)
    rw [List.length_append] at hrest
    rw [entriesFrom, List.map_cons, hrest, DirectoryEntry.block]
    simp only [UInt32.toNat_ofNat', UInt64.toNat_ofNat', hshared, hfront, hdata, hread.1, hread.2]

lemma inBounds_entriesFrom {offset : Nat} {blocks : List Block} (ho : Header.size ≤ offset)
    (hs : ∀ block ∈ blocks, block.shared.length < 2 ^ 32)
    (hl : offset + (blocks.flatMap Block.bytes).length < 2 ^ 64) :
    ∀ e ∈ entriesFrom offset blocks,
      e.InBounds (offset + (blocks.flatMap Block.bytes).length) := by
  induction blocks generalizing offset with
  | nil => simp [entriesFrom]
  | cons block blocks ih =>
    rw [List.flatMap_cons, List.length_append] at hl ⊢
    rw [← Nat.add_assoc] at hl ⊢
    have hlen := block.length_bytes
    rintro e (_ | ⟨_, he⟩)
    · have hshared : block.shared.length % 2 ^ 32 = block.shared.length :=
        Nat.mod_eq_of_lt (hs block List.mem_cons_self)
      have hoff : offset % 2 ^ 64 = offset := Nat.mod_eq_of_lt (by omega)
      have hdata : block.data.length % 2 ^ 64 = block.data.length := Nat.mod_eq_of_lt (by omega)
      simp only [DirectoryEntry.InBounds, DirectoryEntry.stop, UInt32.toNat_ofNat',
        UInt64.toNat_ofNat', hshared, hoff, hdata]
      omega
    · exact ih (by omega) (fun b' hb' => hs b' (List.mem_cons_of_mem _ hb')) hl e he

lemma length_directory (b : Builder) : b.directory.length = b.blockCount := by
  rw [directory, List.length_mergeSort, length_entriesFrom, blockCount]

lemma length_image (b : Builder) (timestamp : Int64) :
    (b.image timestamp).length =
      Header.size + b.data.length + DirectoryEntry.size * b.blockCount := by
  rw [image, body, List.length_append, List.length_append, Header.length_encode,
    DirectoryEntry.length_flatMap_encode, length_directory, Nat.add_assoc]

/-- The sorted directory leads to the sorted blocks. -/
lemma map_block_directory (hs : ∀ block ∈ b.blocks, block.shared.length < 2 ^ 32)
    (hl : (b.image timestamp).length < 2 ^ 64) :
    b.directory.map (·.block (b.image timestamp)) = b.sortedBlocks := by
  rw [length_image] at hl
  have hentries : (entriesFrom Header.size b.blocks).map (·.block (b.image timestamp)) =
      b.blocks := by
    have hh : (b.header timestamp).encode.length = Header.size := Header.length_encode _
    rw [← hh]
    refine map_block_entriesFrom rfl hs ?_
    rw [hh]
    exact Nat.lt_of_le_of_lt (Nat.le_add_right _ _) hl
  have hsort : ∀ x ∈ entriesFrom Header.size b.blocks, ∀ y ∈ entriesFrom Header.size b.blocks,
      decide (x.blockId ≤ y.blockId) =
        decide ((x.block (b.image timestamp)).id ≤ (y.block (b.image timestamp)).id) :=
    fun _ _ _ _ => rfl
  rw [directory, List.map_mergeSort (s := fun x y => decide (x.id ≤ y.id)) hsort, hentries,
    sortedBlocks]

lemma pairwise_directory (hs : ∀ block ∈ b.blocks, block.shared.length < 2 ^ 32)
    (hl : (b.image timestamp).length < 2 ^ 64) :
    b.directory.Pairwise (·.blockId < ·.blockId) := by
  have h := b.pairwise_sortedBlocks
  rw [← map_block_directory hs hl, List.pairwise_map] at h
  exact h

lemma checkFrom_directory (hs : ∀ block ∈ b.blocks, block.shared.length < 2 ^ 32)
    (hl : (b.image timestamp).length < 2 ^ 64) :
    DirectoryEntry.checkFrom (Header.size + b.data.length) none b.directory = .ok () := by
  have hl' := hl
  rw [length_image] at hl'
  refine DirectoryEntry.checkFrom_eq_ok (fun e he => ?_) (pairwise_directory hs hl) (by simp)
  exact inBounds_entriesFrom (Nat.le_refl _) hs (Nat.lt_of_le_of_lt (Nat.le_add_right _ _) hl') e
    (List.mem_mergeSort.1 he)

/-- The header has a word for the number of the blocks. -/
lemma toNat_blockCount_header (b : Builder) (timestamp : Int64) :
    (b.header timestamp).blockCount.toNat = b.blockCount % 2 ^ 32 := by
  rw [header, UInt32.toNat_ofNat']

lemma toNat_directoryOffset_header (hl : (b.image timestamp).length < 2 ^ 64) :
    (b.header timestamp).directoryOffset.toNat = Header.size + b.data.length := by
  rw [length_image] at hl
  rw [header, UInt64.toNat_ofNat']
  exact Nat.mod_eq_of_lt (Nat.lt_of_le_of_lt (Nat.le_add_right _ _) hl)

/-- The directory is found where the header says, and passes all checks. -/
lemma directory_image (hs : ∀ block ∈ b.blocks, block.shared.length < 2 ^ 32)
    (hc : b.blockCount < 2 ^ 32) (hl : (b.image timestamp).length < 2 ^ 64) :
    Table.directory (b.header timestamp) (b.image timestamp) = .ok b.directory := by
  have hcount : (b.header timestamp).blockCount.toNat = b.blockCount := by
    rw [toNat_blockCount_header, Nat.mod_eq_of_lt hc]
  have hoffset := toNat_directoryOffset_header hl
  have hfront : ((b.header timestamp).encode ++ b.data).length = Header.size + b.data.length := by
    rw [List.length_append, Header.length_encode]
  have hentries : DirectoryEntry.decodeMany b.blockCount
      ((b.image timestamp).drop (Header.size + b.data.length)) = b.directory := by
    have hd := DirectoryEntry.decodeMany_encode b.directory []
    rw [List.append_nil] at hd
    rw [image, body, ← List.append_assoc, List.drop_left' hfront, ← length_directory, hd]
  have hend : ¬ (Header.size + b.data.length < Header.size ∨
      Header.size + b.data.length + DirectoryEntry.size * b.blockCount ≠
        (b.image timestamp).length) := by
    rw [length_image]
    omega
  simp only [Table.directory, hcount, hoffset, hentries, if_neg hend, checkFrom_directory hs hl]
  rfl

/-- The header and the digest of an image pass all checks, so that its directory decides. -/
lemma ofBytes_image_eq (b : Builder) (timestamp : Int64) : Table.ofBytes (b.image timestamp) =
    (Table.directory (b.header timestamp) (b.image timestamp)).map fun entries =>
      { header := b.header timestamp
        blocks := (entries.map (·.block (b.image timestamp))).toArray } := by
  have hdecode : Header.decode (b.image timestamp) = .ok (b.header timestamp) :=
    Header.decode_encode_append _ _
  have hvalid : (b.header timestamp).validate = .ok () := rfl
  have hdigest : Sha256.digest ((b.image timestamp).drop Header.size) =
      (b.header timestamp).checksum := by
    rw [image, List.drop_left' (Header.length_encode _)]
    rfl
  rw [Table.ofBytes, hdecode]
  simp only [bind, Except.bind, hvalid, hdigest, ne_eq, not_true_eq_false, if_false]
  rfl

/-- The image of a builder is read as the table of its blocks in the order of their numbers. -/
theorem ofBytes_image (hs : ∀ block ∈ b.blocks, block.shared.length < 2 ^ 32)
    (hc : b.blockCount < 2 ^ 32) (hl : (b.image timestamp).length < 2 ^ 64) :
    Table.ofBytes (b.image timestamp) =
      .ok { header := b.header timestamp, blocks := b.sortedBlocks.toArray } := by
  rw [ofBytes_image_eq, directory_image hs hc hl, Except.map, map_block_directory hs hl]

/-- There are not more blocks than numbers. -/
lemma blockCount_le (b : Builder) : b.blockCount ≤ 2 ^ 32 := by
  have hnodup : ((b.blocks.map Block.id).map UInt32.toFin).Nodup :=
    b.ids_nodup.map fun _ _ => UInt32.toFin_inj.1
  have hle := hnodup.length_le_card
  rwa [List.length_map, List.length_map, Fintype.card_fin] at hle

/-- If every number is used, the word for the number of the blocks is zero, and then the directory
seems to end where it begins. -/
lemma ofBytes_image_of_full (hc : 2 ^ 32 ≤ b.blockCount)
    (hl : (b.image timestamp).length < 2 ^ 64) :
    Table.ofBytes (b.image timestamp) =
      .error (.corrupt
        (.directoryEnd 0 (Header.size + b.data.length) (b.image timestamp).length)) := by
  have hall : b.blockCount = 2 ^ 32 := Nat.le_antisymm b.blockCount_le hc
  have hcount : (b.header timestamp).blockCount.toNat = 0 := by
    rw [toNat_blockCount_header, hall, Nat.mod_self]
  have hend : Header.size + b.data.length < Header.size ∨
      Header.size + b.data.length + DirectoryEntry.size * 0 ≠ (b.image timestamp).length := by
    rw [length_image, DirectoryEntry.size]
    omega
  rw [ofBytes_image_eq, Table.directory]
  simp only [hcount, toNat_directoryOffset_header hl, if_pos hend]
  rfl

end Builder

/-! ## Looking a block up -/

namespace Table

variable {t : Table} {block : Block} {id : UInt32}

/-- The blocks of every table that is read stand in order. -/
lemma pairwise_of_ofBytes {bytes : Bytes} (h : Table.ofBytes bytes = .ok t) :
    t.blocks.toList.Pairwise (·.id < ·.id) := by
  obtain ⟨header, -, h⟩ := bind_eq_ok.1 h
  obtain ⟨-, -, h⟩ := bind_eq_ok.1 h
  obtain ⟨-, h⟩ := ite_error_eq_ok.1 h
  obtain ⟨entries, hentries, h⟩ := bind_eq_ok.1 h
  obtain rfl := Except.ok.inj h
  obtain ⟨-, hdirectory⟩ := ite_error_eq_ok.1 hentries
  obtain ⟨⟨⟩, hcheck, rfl⟩ := map_eq_ok.1 hdirectory
  rw [List.pairwise_map]
  exact (DirectoryEntry.pairwise_of_checkFrom hcheck).1

lemma bisect_isBelow (h : t.blocks.toList.Pairwise (·.id < ·.id)) (id : UInt32) :
    Search.bisect (t.isBelow id) 0 t.blocks.size = t.blocks.toList.countP (·.id < id) := by
  have hmono : t.blocks.toList.Pairwise fun x y =>
      decide (y.id < id) = true → decide (x.id < id) = true := by
    refine h.imp fun {x y} hxy hy => decide_eq_true ?_
    exact UInt32.lt_trans hxy (of_decide_eq_true hy)
  refine Search.bisect_eq_countP hmono fun i hi => ?_
  rw [Array.length_toList] at hi
  simp [isBelow, hi]

/-- A stored block is found under its number. -/
lemma find?_of_mem (h : t.blocks.toList.Pairwise (·.id < ·.id)) (hb : block ∈ t.blocks.toList) :
    t.find? block.id = some block := by
  obtain ⟨front, back, hsplit⟩ := List.append_of_mem hb
  have hp := h
  rw [hsplit, List.pairwise_append] at hp
  obtain ⟨-, hback, hfront⟩ := hp
  -- the blocks below the number are exactly those in front
  have hcount : t.blocks.toList.countP (·.id < block.id) = front.length := by
    rw [hsplit]
    refine Search.countP_append_of (fun x hx => ?_) ?_
    · exact decide_eq_true (hfront x hx block List.mem_cons_self)
    · rintro x (_ | ⟨_, hx⟩)
      · simp
      · have hlt := (List.pairwise_cons.1 hback).1 x hx
        simpa using UInt32.le_of_lt hlt
  have hget : t.blocks[front.length]? = some block := by
    rw [← Array.getElem?_toList, hsplit, List.getElem?_append_right (Nat.le_refl _), Nat.sub_self,
      List.getElem?_cons_zero]
  rw [find?, bisect_isBelow h, hcount, hget]
  simp

lemma mem_of_find? (h : t.find? id = some block) : block ∈ t.blocks.toList ∧ block.id = id := by
  obtain ⟨hget, hid⟩ := Option.filter_eq_some_iff.1 h
  exact ⟨Array.mem_toList_iff.2 (Array.mem_of_getElem? hget), of_decide_eq_true hid⟩

/-- A number that no block has leads nowhere. -/
lemma find?_eq_none (h : ∀ block ∈ t.blocks.toList, block.id ≠ id) : t.find? id = none := by
  cases hf : t.find? id with
  | none => rfl
  | some block => exact absurd (mem_of_find? hf).2 (h block (mem_of_find? hf).1)

end Table

end CellIndex
