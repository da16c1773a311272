import Mathlib.Data.List.Forall2

/-!
# Fallible steps

A computation in several steps succeeds exactly if every step does: for two steps one after the
other (`bind_eq_ok`), for a check in front of a step (`ite_error_eq_ok`), and for one step at every
member of a list (`mapM_eq_ok_iff`).  A list that fails does so at the first of its members that
fails (`exists_first_of_mapM_eq_error`).
-/

namespace CellIndex.Sequence

variable {ε α β : Type}

lemma bind_eq_ok {x : Except ε α} {g : α → Except ε β} {b : β} :
    (x >>= g) = .ok b ↔ ∃ a, x = .ok a ∧ g a = .ok b := by
  cases x with
  | error e => simp [bind, Except.bind]
  | ok a => simp [bind, Except.bind]

lemma map_eq_ok {x : Except ε α} {g : α → β} {b : β} :
    x.map g = .ok b ↔ ∃ a, x = .ok a ∧ g a = b := by
  cases x with
  | error e => simp [Except.map]
  | ok a => simp [Except.map]

/-- A check in front of a computation. -/
lemma ite_error_eq_ok {c : Prop} [Decidable c] {e : ε} {x : Except ε β} {b : β} :
    (if c then .error e else x) = .ok b ↔ ¬ c ∧ x = .ok b := by
  split
  · next h => simp [h]
  · next h => simp [h]

lemma mapM_eq_ok_iff {g : α → Except ε β} {xs : List α} {ys : List β} :
    xs.mapM g = .ok ys ↔ List.Forall₂ (fun a b => g a = .ok b) xs ys := by
  induction xs generalizing ys with
  | nil =>
    rw [List.mapM_nil, List.forall₂_nil_left_iff]
    exact ⟨fun h => (Except.ok.inj h).symm, fun h => h ▸ rfl⟩
  | cons a xs ih =>
    simp only [List.mapM_cons, bind_eq_ok, List.forall₂_cons_left_iff, ih]
    constructor
    · rintro ⟨b, hb, bs, hbs, h⟩
      exact ⟨b, bs, hb, hbs, (Except.ok.inj h).symm⟩
    · rintro ⟨b, bs, hb, hbs, rfl⟩
      exact ⟨b, hb, bs, hbs, rfl⟩

/-- In two lists that are related member by member, every member of the first has a partner. -/
lemma exists_of_forall₂ {R : α → β → Prop} {xs : List α} {ys : List β} {a : α}
    (h : List.Forall₂ R xs ys) (ha : a ∈ xs) : ∃ b ∈ ys, R a b := by
  induction h with
  | nil => exact absurd ha List.not_mem_nil
  | @cons c b xs ys hb _ ih =>
    rcases List.mem_cons.1 ha with rfl | ha
    · exact ⟨b, List.mem_cons_self, hb⟩
    · obtain ⟨b', hb', hg⟩ := ih ha
      exact ⟨b', List.mem_cons_of_mem _ hb', hg⟩

lemma exists_of_mapM_eq_ok {g : α → Except ε β} {xs : List α} {ys : List β} {a : α}
    (h : xs.mapM g = .ok ys) (ha : a ∈ xs) : ∃ b ∈ ys, g a = .ok b :=
  exists_of_forall₂ (mapM_eq_ok_iff.1 h) ha

/-- A step that is known at every member of a list maps the list. -/
lemma mapM_eq_map {g : α → Except ε β} {k : α → β} {xs : List α} (h : ∀ a ∈ xs, g a = .ok (k a)) :
    xs.mapM g = .ok (xs.map k) := by
  rw [mapM_eq_ok_iff, List.forall₂_map_right_iff, List.forall₂_same]
  exact h

/-- A list fails as the first of its members that fails. -/
lemma exists_first_of_mapM_eq_error {g : α → Except ε β} {xs : List α} {e : ε}
    (h : xs.mapM g = .error e) :
    ∃ front a back, xs = front ++ a :: back ∧ (∀ b ∈ front, ∃ c, g b = .ok c) ∧
      g a = .error e := by
  induction xs with
  | nil => exact absurd h (by simp [pure, Except.pure])
  | cons a xs ih =>
    rw [List.mapM_cons] at h
    cases ha : g a with
    | error e' =>
      rw [ha] at h
      obtain rfl : e' = e := Except.error.inj h
      exact ⟨[], a, xs, rfl, fun b hb => absurd hb List.not_mem_nil, ha⟩
    | ok b =>
      cases hxs : xs.mapM g with
      | error e' =>
        rw [ha, hxs] at h
        obtain rfl : e' = e := Except.error.inj h
        obtain ⟨front, bad, back, rfl, hfront, hbad⟩ := ih hxs
        exact ⟨a :: front, bad, back, rfl, List.forall_mem_cons.2 ⟨⟨b, ha⟩, hfront⟩, hbad⟩
      | ok bs =>
        rw [ha, hxs] at h
        exact absurd h (by simp [bind, Except.bind, pure, Except.pure])

lemma exists_of_mapM_eq_error {g : α → Except ε β} {xs : List α} {e : ε}
    (h : xs.mapM g = .error e) : ∃ a ∈ xs, g a = .error e := by
  obtain ⟨front, a, back, rfl, -, ha⟩ := exists_first_of_mapM_eq_error h
  exact ⟨a, List.mem_append_right _ List.mem_cons_self, ha⟩

end CellIndex.Sequence
