import CellIndex.Proofs.RangeFile.Reading

/-!
# Whatever a file holds

A run of bytes is either refused with one of five kinds of errors (`fails_ofBytes`), or it is a file
that answers every question: a look-up and the table of a prefix can only fail because a block is
corrupt, the places of a table are those below its size, and a table that cannot be read leaves one
error among the ranges (`isRobust_of_ofBytes`).  Nothing is asked of the contents: records need not
be sorted, and may overlap or reach beyond their prefix.
-/

namespace CellIndex

open Sequence

variable {f : Format} {α β : Type} {P Q : Error → Prop} {bytes : Bytes}

/-- The errors that refuse a run of bytes. -/
inductive Error.Refuses : Error → Prop
  | headerSize (expected actual : Nat) : Refuses (.invalidHeaderSize expected actual)
  | magic : Refuses .invalidMagic
  | version (version : Nat) : Refuses (.unsupportedVersion version)
  | checksum : Refuses .checksumMismatch
  | corrupt (fault : Corruption) : Refuses (.corrupt fault)

/-- The errors about contents that are inconsistent. -/
inductive Error.IsCorrupt : Error → Prop
  | corrupt (fault : Corruption) : IsCorrupt (.corrupt fault)

lemma Error.IsCorrupt.refuses {e : Error} (h : e.IsCorrupt) : e.Refuses := by
  obtain ⟨fault⟩ := h
  exact .corrupt fault

/-! ## Errors of one kind -/

/-- A computation has no errors but those of a kind. -/
def FailsAs (P : Error → Prop) (x : Except Error α) : Prop := ∀ e, x = .error e → P e

namespace FailsAs

variable {x : Except Error α} {k : α → Except Error β} {e : Error} {c : Prop} [Decidable c]

lemma ok (a : α) : FailsAs P (.ok a : Except Error α) := by
  rintro e ⟨⟩

lemma error (h : P e) : FailsAs P (.error e : Except Error α) := by
  rintro _ ⟨⟩
  exact h

lemma mono (h : FailsAs P x) (hPQ : ∀ e, P e → Q e) : FailsAs Q x := fun e he => hPQ e (h e he)

lemma bind (h : FailsAs P x) (hk : ∀ a, x = .ok a → FailsAs P (k a)) : FailsAs P (x >>= k) := by
  cases x with
  | error e => exact error (h e rfl)
  | ok a => exact hk a rfl

lemma map {g : α → β} (h : FailsAs P x) : FailsAs P (x.map g) := by
  cases x with
  | error e => exact error (h e rfl)
  | ok a => exact ok _

lemma ite {x y : Except Error α} (hx : c → FailsAs P x) (hy : ¬ c → FailsAs P y) :
    FailsAs P (if c then x else y) := by
  split
  · next h => exact hx h
  · next h => exact hy h

/-- There is a result, or an error of the kind. -/
lemma cases (h : FailsAs P x) : (∃ a, x = .ok a) ∨ ∃ e, x = .error e ∧ P e := by
  cases x with
  | error e => exact .inr ⟨e, rfl, h e rfl⟩
  | ok a => exact .inl ⟨a, rfl⟩

end FailsAs

/-! ## Opening a file -/

lemma fails_decode_header (bytes : Bytes) : FailsAs Error.Refuses (Header.decode bytes) := by
  rw [Header.decode]
  split
  · exact .error (.headerSize ..)
  · exact .ok _

lemma fails_validate (h : Header) : FailsAs Error.Refuses h.validate :=
  .ite (fun _ => .error .magic) fun _ => .ite (fun _ => .error (.version _)) fun _ => .ok _

lemma fails_checkFrom (limit : Nat) (previous : Option UInt32) (entries : List DirectoryEntry) :
    FailsAs Error.IsCorrupt (DirectoryEntry.checkFrom limit previous entries) := by
  induction entries generalizing previous with
  | nil => exact .ok _
  | cons e entries ih =>
    rw [DirectoryEntry.checkFrom_cons]
    refine .ite (fun _ => .error (.corrupt _)) fun _ => ?_
    split
    · exact .error (.corrupt _)
    · exact ih _

lemma fails_directory (header : Header) (bytes : Bytes) :
    FailsAs Error.IsCorrupt (Table.directory header bytes) :=
  .ite (fun _ => .error (.corrupt _)) fun _ => (fails_checkFrom _ _ _).map

lemma fails_table (bytes : Bytes) : FailsAs Error.Refuses (Table.ofBytes bytes) := by
  refine (fails_decode_header bytes).bind fun header _ => (fails_validate header).bind fun _ _ => ?_
  refine .ite (fun _ => .error .checksum) fun _ => ?_
  exact ((fails_directory header bytes).mono fun _ => Error.IsCorrupt.refuses).bind fun _ _ => .ok _

lemma fails_ofHeader (bytes : Bytes) : FailsAs Error.Refuses (Format.ofHeader bytes) := by
  rw [Format.ofHeader.eq_def]
  split
  · refine .ite (fun _ => .error (.version _)) fun _ => ?_
    simp only
    split
    · exact .ok _
    · exact .error (.corrupt _)
  · exact .error (.corrupt _)

lemma fails_ofTable (table : Table) : FailsAs Error.Refuses (RangeFile.ofTable table) := by
  rw [RangeFile.ofTable]
  cases table.find? Format.headerBlockId with
  | none => exact .error (.corrupt _)
  | some header =>
    simp only
    rcases (fails_ofHeader header.data).cases with ⟨format, hf⟩ | ⟨e, he, hrefuses⟩
    · rw [hf]
      simp only
      split
      · exact .error (.corrupt _)
      · exact .ok _
    · rw [he]
      exact .error hrefuses

/-- Bytes that are no range file are refused with an error of one of five kinds. -/
theorem fails_ofBytes (bytes : Bytes) : FailsAs Error.Refuses (RangeFile.ofBytes bytes) :=
  (fails_table bytes).bind fun table _ => fails_ofTable table

/-! ## Reading a suffix table -/

lemma fails_decode_shared (f : Format) (bytes : Bytes) :
    FailsAs Error.IsCorrupt (SharedData.decode f bytes) :=
  .ite (fun _ => .error (.corrupt _)) fun _ => .ite (fun _ => .ok _) fun _ =>
    .ite (fun _ => .error (.corrupt _)) fun _ => .ok _

lemma fails_ofBlock (f : Format) (block : Block) :
    FailsAs Error.IsCorrupt (SuffixTable.ofBlock f block) := by
  rw [SuffixTable.ofBlock]
  rcases (fails_decode_shared f block.shared).cases with ⟨shared, hs⟩ | ⟨e, he, hcorrupt⟩
  · rw [hs]
    exact .ite (fun _ => .error (.corrupt _)) fun _ =>
      .ite (fun _ => .error (.corrupt _)) fun _ => .ok _
  · rw [he]
    exact .error hcorrupt

namespace RangeFile

variable {r : RangeFile} {p : UInt32} {id : UInt32}

lemma fails_prefixTable (hp : p.toNat ≤ r.format.maxPrefix) :
    FailsAs Error.IsCorrupt (r.prefixTable p) := by
  rw [prefixTable, if_neg (Nat.not_lt.2 hp)]
  cases r.table.find? (r.format.blockId p) with
  | none => exact .ok _
  | some block =>
    simp only
    rcases (fails_ofBlock r.format block).cases with ⟨table, ht⟩ | ⟨e, he, hcorrupt⟩
    · rw [ht]
      exact .ite (fun _ => .error (.corrupt _)) fun _ => .ok _
    · rw [he]
      exact .error hcorrupt

lemma fails_find (r : RangeFile) (id : CellId) : FailsAs Error.IsCorrupt (r.find id) :=
  (fails_prefixTable (r.format.prefixOf_le id)).map

end RangeFile

/-! ## The places of a table -/

lemma SuffixTable.map_ok_entries (t : SuffixTable f) :
    t.entries.map .ok = (List.range t.records.size).map t.entryAt := by
  refine List.ext_getElem (by simp [entries]) fun index h h' => ?_
  have hi : index < t.records.size := by simpa using h'
  simp [entries, entryAt, hi]

namespace PrefixTable

/-- The ranges of a table are those at its places. -/
lemma map_ok_entries (t : PrefixTable f) :
    t.entries.map .ok = (List.range t.size).map t.entryAt := by
  cases t with
  | populated table => exact table.map_ok_entries
  | unpopulated p => rfl

lemma exists_entryAt {t : PrefixTable f} {index : Nat} (h : index < t.size) :
    ∃ entry, t.entryAt index = .ok entry := by
  cases t with
  | populated table =>
    have hget : table.records[index]? = some table.records[index] := Array.getElem?_eq_getElem h
    exact ⟨_, by rw [entryAt, SuffixTable.entryAt, hget]⟩
  | unpopulated p => exact absurd h (Nat.not_lt_zero _)

lemma entryAt_eq_error {t : PrefixTable f} {index : Nat} (h : t.size ≤ index) :
    t.entryAt index = .error (.indexOutOfBounds index t.size) := by
  cases t with
  | populated table =>
    rw [entryAt, SuffixTable.entryAt, Array.getElem?_eq_none h]
    rfl
  | unpopulated p => rfl

end PrefixTable

/-! ## The blocks of a file -/

namespace RangeFile

variable {r : RangeFile} {p : UInt32} {id : UInt32}

/-- Every block but that of the header is the table of a prefix. -/
lemma exists_prefix_of_isBlockId (h : isBlockId f id = true) (hid : id ≠ Format.headerBlockId) :
    ∃ p, p.toNat ≤ f.maxPrefix ∧ f.blockId p = id ∧ id - f.params.blockOffset = p := by
  obtain heq | ⟨hlow, hhigh⟩ := of_decide_eq_true h
  · exact absurd heq hid
  · have hsub : (id - f.params.blockOffset).toNat = id.toNat - f.params.blockOffset.toNat :=
      UInt32.toNat_sub_of_le _ _ (UInt32.le_iff_toNat_le.2 hlow)
    refine ⟨id - f.params.blockOffset, by omega, ?_, rfl⟩
    rw [Format.blockId, UInt32.sub_add_cancel]

lemma isBlockId_of_ofTable {table : Table} (h : ofTable table = .ok r) :
    r.table = table ∧ ∀ block ∈ r.table.blocks.toList, isBlockId r.format block.id = true := by
  rw [ofTable] at h
  split at h
  · cases h
  · split at h
    · cases h
    · split at h
      · cases h
      · next hnone =>
        obtain rfl := Except.ok.inj h
        refine ⟨rfl, fun block hb => ?_⟩
        simpa using List.find?_eq_none.1 hnone block.id (List.mem_map_of_mem hb)

/-- What a block adds to the ranges of a file: those at the places of its table, or the one error
of a table that cannot be read. -/
def GivesRanges (r : RangeFile) (block : Block) (part : List (Except Error CellRange)) : Prop :=
  ∃ p, p.toNat ≤ r.format.maxPrefix ∧ r.format.blockId p = block.id ∧
    ((∃ table, SuffixTable.ofBlock r.format block = .ok table ∧
        r.prefixTable p = .ok (.populated table) ∧
        part = (List.range table.records.size).map fun index =>
          (table.entryAt index).map Entry.range) ∨
      ∃ fault, r.prefixTable p = .error (.corrupt fault) ∧ part = [.error (.corrupt fault)])

/-- Every block but that of the header gives its ranges, or one error. -/
lemma givesRanges (hpair : r.table.blocks.toList.Pairwise (·.id < ·.id)) {block : Block}
    (hb : block ∈ r.table.blocks.toList) (hid : isBlockId r.format block.id = true)
    (hne : block.id ≠ Format.headerBlockId) : r.GivesRanges block (r.rangesOf block.id) := by
  obtain ⟨p, hp, hblock, hsub⟩ := exists_prefix_of_isBlockId hid hne
  refine ⟨p, hp, hblock, ?_⟩
  rw [rangesOf, hsub]
  rcases (fails_prefixTable hp).cases with ⟨table, htable⟩ | ⟨_, herror, ⟨fault⟩⟩
  · -- the table of the prefix is that of the block
    have hread := htable
    rw [RangeFile.prefixTable, if_neg (Nat.not_lt.2 hp), hblock,
      Table.find?_of_mem hpair hb] at hread
    simp only at hread
    cases hof : SuffixTable.ofBlock r.format block with
    | error e => simp [hof] at hread
    | ok suffixTable =>
      simp only [hof, ite_error_eq_ok] at hread
      obtain rfl := Except.ok.inj hread.2
      have hentries := congrArg (List.map (Except.map Entry.range)) suffixTable.map_ok_entries
      rw [List.map_map, List.map_map] at hentries
      refine .inl ⟨suffixTable, rfl, htable, ?_⟩
      rw [htable]
      exact hentries
  · exact .inr ⟨fault, herror, by rw [herror]⟩

/-- A file answers every question, whatever it holds. -/
structure IsRobust (r : RangeFile) : Prop where
  find : ∀ id, (∃ answer, r.find id = .ok answer) ∨ ∃ fault, r.find id = .error (.corrupt fault)
  prefixTable_refused : ∀ p, (∃ fault, r.prefixTable p = .error (.invalidArgument fault)) ↔
    r.format.maxPrefix < p.toNat
  prefixTable : ∀ p, p.toNat ≤ r.format.maxPrefix →
    (∃ table, r.prefixTable p = .ok table) ∨ ∃ fault, r.prefixTable p = .error (.corrupt fault)
  entryAt : ∀ p table, r.prefixTable p = .ok table → ∀ index,
    (index < table.size → ∃ entry, table.entryAt index = .ok entry) ∧
      (table.size ≤ index → table.entryAt index = .error (.indexOutOfBounds index table.size))
  ranges : ∃ parts, r.ranges = parts.flatten ∧
    List.Forall₂ r.GivesRanges (r.table.blocks.toList.filter (·.id ≠ Format.headerBlockId)) parts

theorem isRobust_of_ofBytes (h : ofBytes bytes = .ok r) : r.IsRobust := by
  obtain ⟨table, hread, htable⟩ := bind_eq_ok.1 h
  obtain ⟨rfl, hids⟩ := isBlockId_of_ofTable htable
  refine ⟨fun id => ?_, fun p => ⟨?_, fun hp => ?_⟩, fun p hp => ?_, fun p table _ index => ?_, ?_⟩
  · rcases (fails_find r id).cases with hok | ⟨_, herror, ⟨fault⟩⟩
    · exact .inl hok
    · exact .inr ⟨fault, herror⟩
  · rintro ⟨fault, herror⟩
    by_contra hp
    cases fails_prefixTable (Nat.not_lt.1 hp) _ herror
  · exact ⟨_, by rw [RangeFile.prefixTable, if_pos hp]⟩
  · rcases (fails_prefixTable hp).cases with hok | ⟨_, herror, ⟨fault⟩⟩
    · exact .inl hok
    · exact .inr ⟨fault, herror⟩
  · exact ⟨PrefixTable.exists_entryAt, PrefixTable.entryAt_eq_error⟩
  · refine ⟨(r.table.blocks.toList.filter (·.id ≠ Format.headerBlockId)).map
      fun block => r.rangesOf block.id, ?_, ?_⟩
    · rw [RangeFile.ranges, Table.blockIds, List.filter_map, List.flatMap_map, List.flatMap_def]
      rfl
    · rw [List.forall₂_map_right_iff, List.forall₂_same]
      intro block hblock
      obtain ⟨hb, hne⟩ := List.mem_filter.1 hblock
      exact givesRanges (Table.pairwise_of_ofBytes hread) hb (hids block hb)
        (of_decide_eq_true hne)

end RangeFile

end CellIndex
