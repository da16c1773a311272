import CellIndex.Proofs.RangeFile.Publication
import CellIndex.Proofs.RangeFile.Stepwise

/-!
# Where batches are cut

Ranges that a writer takes at once can be written in several batches, cut anywhere between two
prefixes: the writer is then left as it would be by the whole (`Holds.foldlM_add`), so only the time
in the header can tell the files apart.  A cut inside a prefix does not work.  The batches before
the cut are taken (`Holds.exists_add_front`), but the next one comes back to a prefix that has been
written, and is refused for its first range (`Holds.add_eq_tableWritten`).  Together:
**`write_cut`**.
-/

namespace CellIndex

open Sequence

variable {f : Format} {written front back batch rest ranges : List CellRange}
  {first range : CellRange}
  {pieces : List (List CellRange)} {groups : List PrefixGroup}

/-- No range of the first list has the prefix of a range of the second. -/
def Apart (f : Format) (front back : List CellRange) : Prop :=
  ∀ a ∈ front, ∀ b ∈ back, f.prefixOf a.start ≠ f.prefixOf b.start

/-- Ranges of one prefix are all in one piece. -/
def CutBetweenPrefixes (f : Format) (pieces : List (List CellRange)) : Prop :=
  pieces.Pairwise (Apart f)

/-- Among the pieces, the one that begins with `first` comes behind those in `front`, and is the
first that begins with a prefix that has been in a piece before. -/
structure ComesBack (f : Format) (pieces front : List (List CellRange)) (first : CellRange)
    (rest : List CellRange) : Prop where
  pieces_eq : ∃ back, pieces = front ++ (first :: rest) :: back
  cut : CutBetweenPrefixes f front
  written : ∃ range ∈ front.flatten, f.prefixOf range.start = f.prefixOf first.start

lemma apart_flatten (h : ∀ piece ∈ pieces, Apart f front piece) : Apart f front pieces.flatten := by
  intro a ha b hb
  obtain ⟨piece, hpiece, hb⟩ := List.mem_flatten.1 hb
  exact h piece hpiece a ha b hb

/-- If a prefix is cut, some piece is the first to come back to a prefix. -/
lemma exists_comesBack
    (hsorted : pieces.flatten.Pairwise fun a b => f.prefixOf a.start ≤ f.prefixOf b.start)
    (h : ¬ CutBetweenPrefixes f pieces) :
    ∃ front first rest, ComesBack f pieces front first rest := by
  induction pieces using List.reverseRecOn with
  | nil => exact absurd .nil h
  | append_singleton pieces piece ih =>
    rw [List.flatten_append, List.flatten_singleton] at hsorted
    obtain ⟨hfront, hpiece, hle⟩ := List.pairwise_append.1 hsorted
    by_cases hcut : CutBetweenPrefixes f pieces
    · -- the last piece has a prefix of the pieces before it, and its first range comes in between
      have hback : ¬ Apart f pieces.flatten piece := by
        intro hapart
        refine h (List.pairwise_append.2 ⟨hcut, List.pairwise_singleton _ _, ?_⟩)
        intro xs hxs ys hys a ha b hb
        rw [List.mem_singleton.1 hys] at hb
        exact hapart a (List.mem_flatten_of_mem hxs ha) b hb
      simp only [Apart, not_forall, not_not] at hback
      obtain ⟨a, ha, b, hb, heq⟩ := hback
      cases piece with
      | nil => exact absurd hb List.not_mem_nil
      | cons first rest =>
        have hab := hle a ha first List.mem_cons_self
        have hba : f.prefixOf first.start ≤ f.prefixOf b.start := by
          rcases List.mem_cons.1 hb with rfl | hb
          · exact UInt32.le_refl _
          · exact List.rel_of_pairwise_cons hpiece hb
        exact ⟨pieces, first, rest, ⟨[], rfl⟩, hcut, a, ha, UInt32.le_antisymm hab (heq ▸ hba)⟩
    · obtain ⟨front, first, rest, ⟨back, rfl⟩, hfirst, hwritten⟩ := ih hfront hcut
      exact ⟨front, first, rest, ⟨back ++ [piece], by simp⟩, hfirst, hwritten⟩

/-! ## Two parts of a batch -/

lemma WellFormed.of_append_left (h : WellFormed f written (front ++ back)) :
    WellFormed f written front := by
  intro before range after hfront
  exact h before range (after ++ back) (by simp [hfront])

/-- The first range of the second part stands behind the first part. -/
lemma WellFormed.admissible (h : WellFormed f written (front ++ range :: back)) :
    Admissible f written front range ∧ range.HasValue f := h front range back rfl

/-- Behind ranges of other prefixes the second part is well formed on its own. -/
lemma WellFormed.of_append_right (h : WellFormed f written (front ++ back))
    (hsorted : (front ++ back).Pairwise fun a b => f.prefixOf a.start ≤ f.prefixOf b.start)
    (hapart : Apart f front back) : WellFormed f (written ++ front) back := by
  intro before range after hback
  obtain ⟨⟨hplaced, hstop, hfresh⟩, hvalue⟩ := h (front ++ before) range after (by simp [hback])
  have hmem : range ∈ back := by simp [hback]
  refine ⟨⟨hplaced, by rwa [List.append_assoc], fun last hlast => ?_⟩, hvalue⟩
  rw [List.getLast?_append] at hlast
  rcases hfront : front.getLast? with _ | r
  · exact hfresh last (by simpa [hfront] using hlast)
  · obtain rfl : r = last := by simpa [hfront] using hlast
    have hr := List.mem_of_getLast? hfront
    exact UInt32.lt_of_le_of_ne ((List.pairwise_append.1 hsorted).2.2 r hr range hmem)
      (hapart r hr range hmem)

/-- The values of two parts, one after the other. -/
lemma EncodedTable.valuesOf_append
    (h : ∀ range ∈ front ++ back, ∃ value, range.value = some value) :
    valuesOf (front ++ back) = valuesOf front ++ valuesOf back := by
  rw [valuesOf_eq_map h, valuesOf_eq_map fun range hr => h range (List.mem_append_left _ hr),
    valuesOf_eq_map fun range hr => h range (List.mem_append_right _ hr), List.map_append]

/-- The tables of the first part have no more shared data than those of the whole. -/
lemma SharedFits.of_append_left (h : SharedFits f (front ++ back))
    (hstorable : ∀ range ∈ front ++ back, range.Storable f) : SharedFits f front := by
  intro p shared hencode
  by_cases hv : f.valueBytes = 0
  · rw [SharedData.encode, if_pos (Or.inl hv)] at hencode
    obtain rfl := Except.ok.inj hencode
    rw [BigEndian.length_encode]
    decide
  · have hparts : rangesOfPrefix f (front ++ back) p =
        rangesOfPrefix f front p ++ rangesOfPrefix f back p := List.filter_append ..
    have hvalues : EncodedTable.valuesOf (rangesOfPrefix f (front ++ back) p) =
        EncodedTable.valuesOf (rangesOfPrefix f front p) ++
          EncodedTable.valuesOf (rangesOfPrefix f back p) := by
      rw [hparts]
      refine EncodedTable.valuesOf_append fun range hr => ?_
      rw [← hparts] at hr
      obtain ⟨value, hvalue, -⟩ := (hstorable range (mem_rangesOfPrefix.1 hr).1).value hv
      exact ⟨value, hvalue⟩
    obtain ⟨shared', hencode'⟩ : ∃ shared', SharedData.encode f p
        (EncodedTable.valuesOf (rangesOfPrefix f (front ++ back) p)) = .ok shared' := by
      have hencodable : ∀ range ∈ rangesOfPrefix f (front ++ back) p, range.Encodable f p := by
        intro range hr
        obtain ⟨hmem, hp⟩ := mem_rangesOfPrefix.1 hr
        exact (hstorable range hmem).encodable hp
      exact SharedData.exists_encode (EncodedTable.value_le_of_mem_valuesOf hencodable)
    have hlt := h p shared' hencode'
    rw [hvalues] at hencode'
    exact Nat.lt_of_le_of_lt (SharedData.length_le_of_encode_append hencode hencode') hlt

namespace RangeBuilder

variable {b b' : RangeBuilder} {lastPrefix : Option UInt32} {lastStop : Option CellId}
  {tablePrefix : UInt32}

/-- The tables of an accepted batch have been written, so their shared data is not too long. -/
lemma Holds.sharedFits_of_add (h : Holds f b groups) (hadd : b.add batch = .ok b') :
    SharedFits f batch := by
  obtain ⟨hbatch, b₁, hfold, -⟩ := (add_eq_ok_iff h.format_eq).1 hadd
  obtain ⟨hstores, -⟩ := h.toStores.foldlM_groups hfold
  intro p shared hencode
  rcases eq_or_ne (rangesOfPrefix f batch p) [] with hnil | hne
  · have hshort := SharedData.length_le_of_encode hencode
    have hlength := EncodedTable.length_valuesOf_le (rangesOfPrefix f batch p)
    rw [hnil, List.length_nil] at hlength
    rw [hnil] at hshort
    omega
  · obtain ⟨range, hr⟩ := List.exists_mem_of_ne_nil _ hne
    obtain ⟨hrange, rfl⟩ := mem_rangesOfPrefix.1 hr
    rw [← rangesIn_prefixGroups f batch] at hrange
    obtain ⟨g, hg, hrg⟩ := mem_rangesIn.1 hrange
    have hgroup := isGroup_of_mem_prefixGroups hbatch hg
    have hranges := (division_of_goodBatch hbatch).rangesOfPrefix_eq hg
    rw [rangesIn_prefixGroups, ← hgroup.prefixOf_eq range hrg] at hranges
    -- the block of the group has the same shared data
    obtain ⟨block, -, hblock⟩ := exists_of_forall₂ hstores.blocks (List.mem_append_right _ hg)
    obtain ⟨table, htable, rfl⟩ := map_eq_ok.1 hblock.tableBlock_eq
    obtain ⟨table', htable', hencode'⟩ := hgroup.exists_ofRanges
    obtain rfl : table = table' := Except.ok.inj (htable.symm.trans htable')
    rw [hranges, hgroup.prefixOf_eq range hrg, hencode'] at hencode
    exact Except.ok.inj hencode ▸ hblock.shared_lt

/-- What comes first in an accepted batch is accepted on its own, wherever the rest begins. -/
lemma Holds.exists_add_front (h : Holds f b groups) (hadd : b.add (front ++ back) = .ok b') :
    ∃ b₁, b.add front = .ok b₁ := by
  obtain ⟨hgood, -⟩ := (add_eq_ok_iff h.format_eq).1 hadd
  refine h.exists_add (h.goodBatch_iff.2 (h.goodBatch_iff.1 hgood).of_append_left) ?_
  exact (h.sharedFits_of_add hadd).of_append_left hgood.storable

lemma stopAfter_append (lastStop : Option CellId) (front back : List CellRange) :
    stopAfter lastStop (front ++ back) = stopAfter (stopAfter lastStop front) back := by
  rw [stopAfter, stopAfter, stopAfter, List.getLast?_append, Option.map_or, Option.or_assoc]

/-- A batch that is cut between two prefixes is accepted in two parts, with the same result. -/
lemma Holds.exists_add_append (h : Holds f b groups) (hapart : Apart f front back)
    (hadd : b.add (front ++ back) = .ok b') :
    ∃ b₁, b.add front = .ok b₁ ∧ b₁.add back = .ok b' := by
  obtain ⟨hgood, c, hfold, rfl⟩ := (add_eq_ok_iff h.format_eq).1 hadd
  have hwell := h.goodBatch_iff.1 hgood
  rw [groups_append fun a ha b hb => hapart a (List.mem_of_getLast? ha) b (List.mem_of_head? hb),
    List.foldlM_append] at hfold
  obtain ⟨c₁, hfront, hback⟩ := bind_eq_ok.1 hfold
  have hfirst : b.add front = .ok (c₁.withLastStop (stopAfter c₁.lastStop front)) :=
    (add_eq_ok_iff h.format_eq).2 ⟨h.goodBatch_iff.2 hwell.of_append_left, c₁, hfront, rfl⟩
  -- the second part is checked behind the ranges of the first
  obtain ⟨groups', h₁, hranges⟩ := exists_holds_of_add h hfirst
  have hsecond : WellFormed f (rangesIn (groups ++ groups')) back := by
    rw [rangesIn_append, hranges]
    exact hwell.of_append_right hgood.pairwise_prefix hapart
  -- where the last range ends does not matter to the groups of the second part
  have hgroups := (foldlM_addGroup_withLastStop c₁ (stopAfter c₁.lastStop front) _).trans
    (map_eq_ok.2 ⟨c, hback, rfl⟩)
  obtain ⟨hstores, -⟩ := h.toStores.foldlM_groups hfront
  have hstop := (hstores.foldlM_groups hback).2
  refine ⟨_, hfirst, (add_eq_ok_iff h₁.format_eq).2 ⟨h₁.goodBatch_iff.2 hsecond, _, hgroups, ?_⟩⟩
  change c.withLastStop (stopAfter c.lastStop (front ++ back)) =
    c.withLastStop (stopAfter (stopAfter c₁.lastStop front) back)
  rw [hstop, stopAfter_append]

/-- So it is accepted in any number of parts. -/
lemma Holds.foldlM_add (h : Holds f b groups) (hcut : CutBetweenPrefixes f pieces)
    (hadd : b.add pieces.flatten = .ok b') : pieces.foldlM RangeBuilder.add b = .ok b' := by
  induction pieces generalizing b groups with
  | nil => exact hadd
  | cons piece pieces ih =>
    obtain ⟨hpiece, hpieces⟩ := List.pairwise_cons.1 hcut
    rw [List.flatten_cons] at hadd
    obtain ⟨b₁, hfirst, hrest⟩ := h.exists_add_append (apart_flatten hpiece) hadd
    obtain ⟨groups', h₁, -⟩ := exists_holds_of_add h hfirst
    exact bind_eq_ok.2 ⟨b₁, hfirst, ih h₁ hpieces hrest⟩

/-! ## A cut inside a prefix -/

/-- A range that could be stored, and begins where it may, is refused if its prefix is not behind
the last one written. -/
lemma checkRange_eq_tableWritten (hstorable : range.Storable f)
    (hstop : ∀ stop ∈ lastStop, stop ≤ range.start) (hp : tablePrefix ∈ lastPrefix)
    (hle : f.prefixOf range.start ≤ tablePrefix) :
    checkRange f lastPrefix lastStop range =
      .error (.invalidRange range (.tableWritten (f.prefixOf range.start))) := by
  have hcell : ¬ (¬ f.IsCell range.start ∨ ¬ f.IsBoundary range.stop) := by
    simp [hstorable.isCell_start, hstorable.isBoundary_stop]
  have hwritten : lastPrefix.any (f.prefixOf range.start ≤ ·) = true := by
    rw [Option.mem_def.1 hp]
    exact decide_eq_true hle
  simp only [checkRange, if_neg (not_le.2 hstorable.start_lt_stop), if_neg hcell,
    not_any_start_lt.2 hstop, hwritten, Bool.false_eq_true, if_false, if_true]

/-- A batch that comes back to a prefix is refused for its first range. -/
lemma Holds.add_eq_tableWritten (h : Holds f b groups) (hstorable : first.Storable f)
    (hsorted : ∀ previous ∈ (rangesIn groups).getLast?, previous.stop ≤ first.start)
    (hr : range ∈ rangesIn groups) (heq : f.prefixOf range.start = f.prefixOf first.start) :
    b.add (first :: rest) =
      .error (.invalidRange first (.tableWritten (f.prefixOf first.start))) := by
  have hstop : ∀ stop ∈ b.lastStop, stop ≤ first.start := by
    rw [h.lastStop_eq]
    simpa using hsorted
  -- the prefix is that of some group, so it is not behind that of the last group
  obtain ⟨g, hg, hrg⟩ := mem_rangesIn.1 hr
  obtain ⟨last, hlast, hle⟩ := tablePrefix_le_last h.division hg
  rw [← (h.division.isGroup g hg).prefixOf_eq range hrg, heq] at hle
  have hcheck := checkRange_eq_tableWritten hstorable hstop
    (show last.tablePrefix ∈ b.lastPrefix by rw [h.lastPrefix_eq, hlast]; rfl) hle
  rw [add, h.format_eq, checkBatch_cons, hcheck]
  rfl

end RangeBuilder

/-! ## Writers -/

/-- In the image of a table the time has its place behind the first 24 bytes, and nothing else
depends on it. -/
lemma Builder.exists_image_eq (t : Builder) : ∃ front back : Bytes, front.length = 24 ∧
    ∀ time : Int64, t.image time = front ++ BigEndian.encode 8 time.toUInt64.toNat ++ back := by
  refine ⟨(t.header 0).magic.1 ++ BigEndian.encode 4 (t.header 0).version.toNat ++
    BigEndian.encode 4 (t.header 0).blockCount.toNat ++
    BigEndian.encode 8 (t.header 0).directoryOffset.toNat, (t.header 0).checksum.1 ++ t.body, ?_,
    fun time => ?_⟩
  · simp [(t.header 0).magic.2]
  · rw [image, Header.encode, List.append_assoc]
    simp only [List.append_assoc]
    rfl

namespace RangeWriter

variable {folder folder₁ folder₂ : Folder} {target : Path} {w w' : RangeWriter}

/-- Whenever two writers are closed, either both fail, and alike, or both leave the same file at the
target but for the time in its header. -/
def CloseAlike (target : Path) (w w' : RangeWriter) (folder folder' : Folder) : Prop :=
  ∃ front back : Bytes, front.length = 24 ∧ ∀ time time' : Int64,
    (w.close folder time).1 = (w'.close folder' time').1 ∧
      ((w.close folder time).1 = .ok () →
        (w.close folder time).2.read target =
            .ok (front ++ BigEndian.encode 8 time.toUInt64.toNat ++ back) ∧
          (w'.close folder' time').2.read target =
            .ok (front ++ BigEndian.encode 8 time'.toUInt64.toNat ++ back))

lemma Holds.closeAlike (h : Holds f target w groups) (folder : Folder) :
    CloseAlike target w w folder folder := by
  obtain ⟨b, t, -, -, hclose⟩ := h.exists_close
  obtain ⟨front, back, hfront, himage⟩ := t.exists_image_eq
  refine ⟨front, back, hfront, fun time time' => ?_⟩
  have hlength : (t.image time).length = (t.image time').length := by
    rw [Builder.length_image, Builder.length_image]
  simp only [hclose]
  by_cases hpub : folder.Publishable target (t.image time)
  · have hpublish := Folder.publish_of_publishable hpub
    have hpublish' := Folder.publish_of_publishable (hpub.congr hlength)
    rw [hpublish, hpublish', ← himage, ← himage]
    exact ⟨rfl, fun _ => ⟨(Folder.read_of_publish hpublish).1,
      (Folder.read_of_publish hpublish').1⟩⟩
  · have hpub' : ¬ folder.Publishable target (t.image time') := fun h => hpub (h.congr hlength.symm)
    rw [Folder.publish_of_not_publishable hpub, Folder.publish_of_not_publishable hpub']
    exact ⟨rfl, fun hok => nomatch hok⟩

/-- A batch that is taken is taken by the builder. -/
lemma exists_add_of_write {b : RangeBuilder} (hb : w.builder = some b)
    (h : w.write folder batch = (.ok (), w', folder₁)) :
    ∃ b', b.add batch = .ok b' ∧ w' = { w with builder := some b' } ∧ folder₁ = folder := by
  simp only [write, hb] at h
  cases hadd : b.add batch with
  | error e => simp [hadd] at h
  | ok b' =>
    rw [hadd] at h
    obtain ⟨-, hrest⟩ := Prod.mk.inj h
    obtain ⟨hw', hfolder⟩ := Prod.mk.inj hrest
    exact ⟨b', rfl, hw'.symm, hfolder.symm⟩

/-- **Cuts between prefixes do not show, and cuts inside a prefix are refused.**  If a new writer
takes some ranges at once, it also takes them in pieces of which no two have ranges of the same
prefix, and then publishes the same file but for its time.  If two pieces do have ranges of the same
prefix, there is a first that begins with a prefix that has been written before.  The pieces before
that are taken, it is refused for its first range, and nothing that is done with the writer
afterwards changes the target. -/
theorem write_cut (hcreate : create folder target f = .ok (w, folder₁))
    (hwrite : w.write folder₁ ranges = (.ok (), w', folder₂)) (hpieces : pieces.flatten = ranges) :
    (CutBetweenPrefixes f pieces → ∃ w'' folder₃, Accepts w folder₁ pieces w'' folder₃ ∧
        CloseAlike target w' w'' folder₂ folder₃) ∧
      (¬ CutBetweenPrefixes f pieces → ∃ front first rest, ComesBack f pieces front first rest) ∧
      ∀ front first rest, ComesBack f pieces front first rest →
        ∃ w₁ w₂ folder₃ folder₄, Accepts w folder₁ front w₁ folder₃ ∧
          w₁.write folder₃ (first :: rest) =
            (.error (.invalidRange first (.tableWritten (f.prefixOf first.start))), w₂, folder₄) ∧
          ∀ steps, ¬ Published (Run.history Stage.step ⟨some w₂, folder₄⟩ steps) ∧
            (Run.after Stage.step ⟨some w₂, folder₄⟩ steps).folder.get? target =
              folder.get? target := by
  subst hpieces
  have hw := holds_of_create hcreate
  obtain ⟨b, hb, hholds⟩ := hw.builder
  obtain ⟨b', hadd, rfl, rfl⟩ := exists_add_of_write hb hwrite
  obtain ⟨hgood, -⟩ := (RangeBuilder.add_eq_ok_iff hholds.format_eq).1 hadd
  refine ⟨fun hcut => ?_, exists_comesBack hgood.pairwise_prefix, ?_⟩
  · obtain ⟨groups, hw', -⟩ := exists_holds_of_write hw hwrite
    exact ⟨_, _, accepts_of_foldlM folder₂ hb (hholds.foldlM_add hcut hadd), hw'.closeAlike folder₂⟩
  · rintro front first rest ⟨⟨back, rfl⟩, hcut, range, hrange, heq⟩
    rw [List.flatten_append, List.flatten_cons] at hadd hgood
    obtain ⟨b₁, hfront⟩ := hholds.exists_add_front hadd
    have haccepts := accepts_of_foldlM folder₂ hb (hholds.foldlM_add hcut hfront)
    obtain ⟨groups, h₁, hranges⟩ := RangeBuilder.exists_holds_of_add hholds hfront
    rw [List.nil_append] at h₁
    -- the first range of the piece has been accepted behind those before it
    obtain ⟨hadmissible, hvalue⟩ := (hholds.goodBatch_iff.1 hgood).admissible
    have herror : b₁.add (first :: rest) =
        .error (.invalidRange first (.tableWritten (f.prefixOf first.start))) := by
      refine h₁.add_eq_tableWritten (CellRange.storable_iff.2 ⟨hadmissible.placed, hvalue⟩)
        (fun previous hprevious => hadmissible.sorted previous ?_) (hranges ▸ hrange) heq
      rwa [hranges] at hprevious
    refine ⟨_, { w with builder := none }, folder₂, folder₂.abandon w.target, haccepts, ?_,
      fun steps => ?_⟩
    · simp only [write, herror]
    · obtain ⟨hfolder, hpublished⟩ := @Stage.after_of_failed
        ⟨some { w with builder := none }, folder₂.abandon w.target⟩ (by simp) steps
      have hkeeps := ((Phase.of_create hcreate).keeps (by simp [Published])).abandon
      refine ⟨hpublished, ?_⟩
      rw [hfolder, hw.target_eq]
      exact hkeeps.target_eq

/-- Three ranges, of which the first two have the same prefix: a cut behind them does not show, even
with an empty piece, and a cut between them is refused. -/
theorem write_cut_three_ranges :
    ∃ w folder₁ w' folder₂,
      create .empty ⟨["cells"]⟩ sampleFormat = .ok (w, folder₁) ∧
        w.write folder₁ [sampleRange 0 1 7, sampleRange 1 2 8, sampleRange 2 3 7] =
          (.ok (), w', folder₂) ∧
        (∃ w'' folder₃,
          Accepts w folder₁ [[sampleRange 0 1 7, sampleRange 1 2 8], [], [sampleRange 2 3 7]]
            w'' folder₃ ∧
          CloseAlike ⟨["cells"]⟩ w' w'' folder₂ folder₃) ∧
        ∃ w₁ w₂ folder₃ folder₄, Accepts w folder₁ [[sampleRange 0 1 7]] w₁ folder₃ ∧
          w₁.write folder₃ [sampleRange 1 2 8, sampleRange 2 3 7] =
            (.error (.invalidRange (sampleRange 1 2 8) (.tableWritten 0)), w₂, folder₄) := by
  obtain ⟨w, folder₁, w', folder₂, -, hcreate, hwrites, -⟩ := @exists_sample_session
    [[sampleRange 0 1 7, sampleRange 1 2 8, sampleRange 2 3 7]] (by decide +kernel)
  cases hwrites with
  | cons hwrite hrest =>
    cases hrest
    refine ⟨w, folder₁, w', folder₂, hcreate, hwrite, ?_, ?_⟩
    · have hgood : CutBetweenPrefixes sampleFormat
          [[sampleRange 0 1 7, sampleRange 1 2 8], [], [sampleRange 2 3 7]] := by
        unfold CutBetweenPrefixes Apart
        decide +kernel
      obtain ⟨htaken, -⟩ := @write_cut sampleFormat _ [[sampleRange 0 1 7, sampleRange 1 2 8], [],
        [sampleRange 2 3 7]] _ _ _ _ _ _ hcreate hwrite rfl
      exact htaken hgood
    · have hback : ComesBack sampleFormat
          [[sampleRange 0 1 7], [sampleRange 1 2 8, sampleRange 2 3 7]] [[sampleRange 0 1 7]]
          (sampleRange 1 2 8) [sampleRange 2 3 7] :=
        ⟨⟨[], rfl⟩, List.pairwise_singleton _ _, sampleRange 0 1 7, by decide +kernel,
          by decide +kernel⟩
      obtain ⟨-, -, hcomesBack⟩ := @write_cut sampleFormat _ [[sampleRange 0 1 7],
        [sampleRange 1 2 8, sampleRange 2 3 7]] _ _ _ _ _ _ hcreate hwrite rfl
      obtain ⟨w₁, w₂, folder₃, folder₄, haccepts, hrefused, -⟩ := hcomesBack _ _ _ hback
      have htable : sampleFormat.prefixOf (sampleRange 1 2 8).start = 0 := by decide +kernel
      rw [htable] at hrefused
      exact ⟨w₁, w₂, folder₃, folder₄, haccepts, hrefused⟩

end RangeWriter

end CellIndex
