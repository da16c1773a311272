import CellIndex.Cell.Path
import CellIndex.Proofs.Cell.Hierarchy

/-!
# Paths and the hierarchy

The path of a cell names the face and then, level by level, the child that the cell lies in.  Two
ids agree above the marker of a level exactly if they lie on one face and in the same children down
to that level (`div_eq_iff_childAt`).  Hence the path of a cell is continued by the paths of those
cells that it covers, and of no others (`path_prefix_iff`), and no two ids share a path
(`path_injective`).
-/

namespace CellIndex.CellId

variable {a b : CellId} {l : Nat}

/-- What two ids have in common above the marker of a level is the face and the way down to that
level. -/
lemma div_eq_iff_childAt (hl : l ≤ maxLevel) :
    a.toNat / 2 ^ (levelZeros l + 1) = b.toNat / 2 ^ (levelZeros l + 1) ↔
      a.face = b.face ∧ ∀ k < l, a.childAt (k + 1) = b.childAt (k + 1) := by
  induction l with
  | zero => exact (and_iff_left fun k hk => absurd hk (Nat.not_lt_zero k)).symm
  | succ l ih =>
    -- a level further down there are two bits more
    have hplace : levelZeros l + 1 = levelZeros (l + 1) + 1 + 2 := by
      simp only [levelZeros]
      omega
    have hup : ∀ id : CellId, id.toNat / 2 ^ (levelZeros l + 1) =
        id.toNat / 2 ^ (levelZeros (l + 1) + 1) / 4 := by
      intro id
      rw [Nat.div_div_eq_div_mul, hplace, Nat.pow_add _ _ 2]
    have hchild : ∀ id : CellId,
        id.childAt (l + 1) = id.toNat / 2 ^ (levelZeros (l + 1) + 1) % 4 := fun _ => rfl
    rw [Nat.forall_lt_succ_right, ← and_assoc, ← ih (by omega), hup, hup, hchild, hchild]
    omega

/-! ## Paths of cells -/

lemma digitChar_inj {m n : Nat} (hm : m < faceCount) (hn : n < faceCount) :
    m.digitChar = n.digitChar ↔ m = n := by
  have hdigits : ∀ m < faceCount, ∀ n < faceCount, m.digitChar = n.digitChar ↔ m = n := by decide
  exact hdigits m hm n hn

lemma childAt_lt (id : CellId) (level : Nat) : id.childAt level < faceCount :=
  Nat.lt_trans (Nat.mod_lt _ (by decide)) (by decide : 4 < faceCount)

/-- The digits below the face of a path begin with those of another one if the level is not less and
the children are the same down to the level of the other. -/
lemma children_prefix_iff : a.children.map Nat.digitChar <+: b.children.map Nat.digitChar ↔
    a.level ≤ b.level ∧ ∀ k < a.level, a.childAt (k + 1) = b.childAt (k + 1) := by
  simp only [children, List.map_map, List.prefix_iff_getElem, List.length_map, List.length_range,
    List.getElem_map, List.getElem_range, Function.comp_apply, exists_prop,
    digitChar_inj (childAt_lt _ _) (childAt_lt _ _)]

/-- The path of a cell is continued by the paths of the cells that it covers. -/
lemma path_prefix_iff (ha : a.Valid) (hb : b.Valid) : a.path <+: b.path ↔ a.Covers b := by
  rw [path, if_pos ha, path, if_pos hb, List.cons_prefix_cons, List.cons_prefix_cons,
    children_prefix_iff, digitChar_inj ha.face_lt hb.face_lt]
  have hdiv := @div_eq_iff_childAt a b _ a.level_le
  rw [← ha.zeros_eq] at hdiv
  constructor
  · rintro ⟨hface, -, hlevel, hchildren⟩
    exact (covers_iff ha hlevel).2 (hdiv.2 ⟨hface, hchildren⟩).symm
  · intro h
    obtain ⟨hface, hchildren⟩ := hdiv.1 ((covers_iff ha h.1).1 h).symm
    exact ⟨hface, rfl, h.1, hchildren⟩

/-- Two cells that cover each other are one. -/
lemma Covers.antisymm (hb : b.Valid) (hab : a.Covers b) (hba : b.Covers a) : a = b := by
  have hself := ((covers_iff hb (Nat.le_refl _)).2 rfl).2
  rw [← Nat.le_antisymm hab.1 hba.1, hab.2] at hself
  exact hself

/-! ## Paths of all ids -/

/-- The path of a cell begins with a digit. -/
lemma path_ne_of_valid (ha : a.Valid) (hb : ¬ b.Valid) : a.path ≠ b.path := by
  have hdigit : ∀ face < faceCount, face.digitChar ≠ 'i' := by decide
  rw [path, if_pos ha, path, if_neg hb]
  exact fun h => hdigit a.face ha.face_lt (List.cons.inj h).1

/-- No two ids share a path. -/
lemma path_injective : Function.Injective path := by
  intro a b h
  by_cases ha : a.Valid
  · by_cases hb : b.Valid
    · have hab := (path_prefix_iff ha hb).1 (h ▸ List.prefix_rfl)
      have hba := (path_prefix_iff hb ha).1 (h ▸ List.prefix_rfl)
      exact hab.antisymm hb hba
    · exact absurd h (path_ne_of_valid ha hb)
  · by_cases hb : b.Valid
    · exact absurd h.symm (path_ne_of_valid hb ha)
    · rw [path, if_neg ha, path, if_neg hb, List.append_cancel_left_eq] at h
      have hread := @Hexadecimal.decode?_encode 16 a.toNat a.toNat_lt
      rw [h, @Hexadecimal.decode?_encode 16 b.toNat b.toNat_lt] at hread
      exact toNat_inj.1 (Option.some.inj hread).symm

end CellIndex.CellId
