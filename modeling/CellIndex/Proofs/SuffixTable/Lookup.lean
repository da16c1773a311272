import CellIndex.Proofs.SuffixTable.Table

/-!
# Looking a cell up in a suffix table

In a group whose ranges stand in order, the binary search for a suffix finds the range that a scan
of the group finds (`find_ofGroup`).
-/

namespace CellIndex.SuffixTable

variable {f : Format} {tablePrefix : UInt32} {group : List CellRange} {range : CellRange}
  {id : CellId}

/-- In a group, a range that ends before another one begins lies below it. -/
lemma stop_le_iff (h : IsGroup f tablePrefix group) {a b : CellRange} (ha : a ∈ group)
    (hb : b ∈ group) : a.stop ≤ b.start ↔
      f.suffixOf a.start + f.rangeLength a.start a.stop ≤ f.suffixOf b.start := by
  have hstop := (h.storable a ha).position_stop
  have hstart := f.position_eq b.start
  rw [h.prefixOf_eq a ha] at hstop
  rw [h.prefixOf_eq b hb] at hstart
  rw [(h.storable a ha).isBoundary_stop.le_iff (h.storable b hb).isBoundary_start]
  omega

lemma contains_iff (h : IsGroup f tablePrefix group) (hr : range ∈ group)
    (hid : f.prefixOf id = tablePrefix) :
    range.Contains (f.cellOf id) ↔ f.suffixOf range.start ≤ f.suffixOf id ∧
      f.suffixOf id < f.suffixOf range.start + f.rangeLength range.start range.stop := by
  rw [(h.storable range hr).contains_iff, h.prefixOf_eq range hr, hid]
  exact and_iff_right rfl

/-- The ranges that begin at or before a suffix stand in front. -/
lemma pairwise_begins (h : IsGroup f tablePrefix group)
    (hp : group.Pairwise fun a b => a.stop ≤ b.start) (suffix : Nat) :
    group.Pairwise fun a b => decide (f.suffixOf b.start ≤ suffix) = true →
      decide (f.suffixOf a.start ≤ suffix) = true := by
  refine hp.imp_of_mem fun {a b} ha hb hab hle => decide_eq_true ?_
  have hlt := (stop_le_iff h ha hb).1 hab
  have hle := of_decide_eq_true hle
  omega

/-- The search counts the ranges that begin at or before the suffix. -/
lemma bisect_startsBy (h : IsGroup f tablePrefix group)
    (hp : group.Pairwise fun a b => a.stop ≤ b.start) (suffix : Nat) :
    Search.bisect ((ofGroup f tablePrefix group).startsBy suffix) 0
        (ofGroup f tablePrefix group).records.size =
      group.countP fun range => f.suffixOf range.start ≤ suffix := by
  have hsize : (ofGroup f tablePrefix group).records.size = group.length := by simp [ofGroup]
  rw [hsize]
  refine Search.bisect_eq_countP (pairwise_begins h hp suffix) fun i hi => ?_
  rw [startsBy, getElem?_records, List.getElem?_eq_getElem hi]
  rfl

/-- The range that a scan finds is the last that begins at or before the cell. -/
lemma border_of_find? (h : IsGroup f tablePrefix group)
    (hp : group.Pairwise fun a b => a.stop ≤ b.start) (hid : f.prefixOf id = tablePrefix)
    (hfind : group.find? (·.Contains (f.cellOf id)) = some range) :
    ∃ index, (group.countP fun range => f.suffixOf range.start ≤ f.suffixOf id) = index + 1 ∧
      group[index]? = some range := by
  obtain ⟨hc, front, back, rfl, -⟩ := List.find?_eq_some_iff_append.1 hfind
  have hmem : range ∈ front ++ range :: back := List.mem_append_right _ List.mem_cons_self
  have hc := (contains_iff h hmem hid).1 (of_decide_eq_true hc)
  obtain ⟨-, hback, hfront⟩ := List.pairwise_append.1 hp
  refine ⟨front.length, ?_, by simp⟩
  -- up to the range all begin at or before the cell, behind it all begin after the cell
  have hsplit : front ++ range :: back = (front ++ [range]) ++ back := by simp
  rw [hsplit, Search.countP_append_of, List.length_append, List.length_singleton]
  · intro a ha
    rcases List.mem_append.1 ha with ha | ha
    · have hlt := (stop_le_iff h (List.mem_append_left _ ha) hmem).1
        (hfront a ha range List.mem_cons_self)
      exact decide_eq_true (by omega)
    · obtain rfl := List.mem_singleton.1 ha
      exact decide_eq_true hc.1
  · intro a ha
    have ha' : a ∈ front ++ range :: back :=
      List.mem_append_right _ (List.mem_cons_of_mem _ ha)
    have hlt := (stop_le_iff h hmem ha').1 ((List.pairwise_cons.1 hback).1 a ha)
    simp only [decide_eq_true_eq]
    omega

/-- If a scan finds nothing, the last range that begins at or before the cell ends too early. -/
lemma border_of_find?_eq_none (h : IsGroup f tablePrefix group)
    (hp : group.Pairwise fun a b => a.stop ≤ b.start) (hid : f.prefixOf id = tablePrefix)
    (hfind : group.find? (·.Contains (f.cellOf id)) = none) {index : Nat}
    (hcount : (group.countP fun range => f.suffixOf range.start ≤ f.suffixOf id) = index + 1) :
    ∃ range, group[index]? = some range ∧
      ¬ f.suffixOf id - f.suffixOf range.start < f.rangeLength range.start range.stop := by
  have hlt : index < group.length := by
    have := @List.countP_le_length _ (fun range : CellRange =>
      decide (f.suffixOf range.start ≤ f.suffixOf id)) group
    omega
  have hmem := List.getElem_mem hlt
  have hbegin := (Search.getElem_iff_lt_countP (pairwise_begins h hp (f.suffixOf id)) hlt).2
    (by omega)
  have hbegin := of_decide_eq_true hbegin
  have hout := List.find?_eq_none.1 hfind group[index] hmem
  rw [decide_eq_true_eq, contains_iff h hmem hid] at hout
  exact ⟨group[index], List.getElem?_eq_getElem hlt, by omega⟩

/-- A look-up in the table of a group is a scan of the group. -/
theorem find_ofGroup (h : IsGroup f tablePrefix group)
    (hp : group.Pairwise fun a b => a.stop ≤ b.start) (hid : f.prefixOf id = tablePrefix) :
    ((ofGroup f tablePrefix group).find id).map Entry.range =
      (group.find? (·.Contains (f.cellOf id))).map (·.stored f) := by
  rw [find, tablePrefix_ofGroup, if_neg (not_not_intro hid)]
  simp only [bisect_startsBy h hp]
  cases hfind : group.find? (·.Contains (f.cellOf id)) with
  | some range =>
    obtain ⟨index, hcount, hget⟩ := border_of_find? h hp hid hfind
    have hc : range.Contains (f.cellOf id) := by simpa using List.find?_some hfind
    have hin := (contains_iff h (List.mem_of_getElem? hget) hid).1 hc
    have hlt : f.suffixOf id - (Record.ofRange f range).start <
        (Record.ofRange f range).length := by
      simp only [Record.ofRange]
      omega
    simp only [hcount, getElem?_records, hget, Option.map_some, if_pos hlt, entry_ofGroup h hget]
  | none =>
    cases hcount : group.countP fun range => f.suffixOf range.start ≤ f.suffixOf id with
    | zero => rfl
    | succ index =>
      obtain ⟨range, hget, hge⟩ := border_of_find?_eq_none h hp hid hfind hcount
      have hge : ¬ f.suffixOf id - (Record.ofRange f range).start <
          (Record.ofRange f range).length := hge
      simp only [getElem?_records, hget, Option.map_some, if_neg hge]
      rfl

end CellIndex.SuffixTable
