import CellIndex.Format.Json
import CellIndex.Proofs.Format.Header
import CellIndex.Proofs.Json.Printing
import CellIndex.Proofs.Json.Reading
import Mathlib.Data.List.Nodup
import Mathlib.Data.List.Perm.Basic

/-!
# Formats as JSON texts

`Holds` says of the members of an object, and `Tells` of any value, that they tell parameters.  This
is what the reader takes from a value, whatever the order of the members (`tells_iff`): of each
member it looks for those with its key (`under`), and finding one for each of different keys is the
same as having them all in some order (`holds_of_isTold`, `isTold_of_holds`).  Together with the
grammar of JSON this says which texts are read as a format (**`ofJson_exact`**).
-/

namespace CellIndex

open Json (memberOf)

namespace Params

variable {p : Params} {members : List (Option (List Char) × Json)} {value : Json}

/-! ## What tells the parameters -/

/-- The members that may be left out. -/
def defaults : List (String × Json.Scalar) :=
  [("entry_value_size_in_bytes", .nat 0), ("version_number", .nat 0)]

/-- The members of an object hold the known ones: they are these in any order, of which none is
missing but those that may be left out, and others with other keys. -/
def Holds (members : List (Option (List Char) × Json)) (known : List (String × Json.Scalar)) :
    Prop :=
  ∃ (told : List (String × Json.Scalar)) (others : List (Option (List Char) × Json)),
    members.Perm (told.map memberOf ++ others) ∧ told.Sublist known ∧
    (∀ m ∈ known, m ∈ told ∨ m ∈ defaults) ∧
    ∀ other ∈ others, ∃ key, other.1 = some key ∧ ∀ m ∈ known, m.1.toList ≠ key

/-- The value tells the parameters. -/
inductive Tells (p : Params) : Json → Prop
  /-- By its members. -/
  | object {members : List (Option (List Char) × Json)} : Holds members p.members →
      Tells p (.object members)
  /-- By its items, which are the first parameters in their order; those behind may be left out. -/
  | array {k : Nat} : (∀ m ∈ p.members.drop k, m ∈ defaults) →
      Tells p (.array ((p.members.take k).map (·.2.json)))

/-! ## Single parameters -/

lemma natBelow?_eq_some_iff {bound n : Nat} :
    natBelow? bound value = some n ↔ value = .nat n ∧ n < bound := by
  cases value with
  | nat m =>
    rw [natBelow?, Json.nat.injEq, Option.ite_none_right_eq_some, Option.some.injEq]
    exact ⟨fun ⟨hm, heq⟩ => ⟨heq, heq ▸ hm⟩, fun ⟨heq, hn⟩ => ⟨heq ▸ hn, heq⟩⟩
  | _ => simp [natBelow?]

/-- A number below the bound is the value of what it is turned into. -/
lemma map_natBelow?_eq_some_iff {α : Type} {bound : Nat} {ofNat : Nat → α} {toNat : α → Nat} {x : α}
    (hlt : toNat x < bound) (hleft : ofNat (toNat x) = x)
    (hright : ∀ n < bound, toNat (ofNat n) = n) :
    (natBelow? bound value).map ofNat = some x ↔ value = .nat (toNat x) := by
  rw [Option.map_eq_some_iff]
  constructor
  · rintro ⟨n, hn, rfl⟩
    obtain ⟨rfl, hbound⟩ := natBelow?_eq_some_iff.1 hn
    rw [hright n hbound]
  · exact fun h => ⟨toNat x, natBelow?_eq_some_iff.2 ⟨h, hlt⟩, hleft⟩

lemma byte?_eq_some_iff {x : UInt8} : byte? value = some x ↔ value = .nat x.toNat :=
  map_natBelow?_eq_some_iff x.toNat_lt UInt8.ofNat_toNat fun _ => UInt8.toNat_ofNat_of_lt'

lemma word?_eq_some_iff {x : UInt32} : word? value = some x ↔ value = .nat x.toNat :=
  map_natBelow?_eq_some_iff x.toNat_lt UInt32.ofNat_toNat fun _ => UInt32.toNat_ofNat_of_lt'

lemma bool?_eq_some_iff {b : Bool} : bool? value = some b ↔ value = .bool b := by
  cases value <;> simp [bool?]

/-- A value that may be left out is zero where it is. -/
lemma getD_map_eq_some_iff {α : Type} {read : Json → Option α} {zero x : α} {told : Json}
    {value : Option Json} (hread : ∀ v, read v = some x ↔ v = told) :
    (value.map read).getD (some zero) = some x ↔ value = some told ∨ value = none ∧ x = zero := by
  cases value with
  | none => simp [eq_comm]
  | some v => simp [hread]

/-- Parameters are read from a list of values exactly if these are their values. -/
lemma ofItems?_eq_some_iff {a b c d e f : Json} {g h : Option Json} :
    ofItems? a b c d e f g h = some p ↔
      a = .nat p.level.toNat ∧ b = .nat p.prefixBits.toNat ∧ c = .nat p.suffixBits.toNat ∧
      d = .nat p.blockOffset.toNat ∧ e = .nat p.recordBits.toNat ∧ f = .bool p.allowedList ∧
      (g = some (.nat p.valueBytes.toNat) ∨ g = none ∧ p.valueBytes = 0) ∧
      (h = some (.nat p.version.toNat) ∨ h = none ∧ p.version = 0) := by
  simp only [ofItems?, Option.bind_eq_bind, Option.bind_eq_some_iff, Option.pure_def,
    Option.some.injEq, byte?_eq_some_iff, word?_eq_some_iff, bool?_eq_some_iff]
  constructor
  · rintro ⟨_, rfl, _, rfl, _, rfl, _, rfl, _, rfl, _, rfl, valueBytes, hvalue, version, hversion,
      rfl⟩
    exact ⟨rfl, rfl, rfl, rfl, rfl, rfl,
      (getD_map_eq_some_iff fun _ => byte?_eq_some_iff).1 hvalue,
      (getD_map_eq_some_iff fun _ => word?_eq_some_iff).1 hversion⟩
  · rintro ⟨rfl, rfl, rfl, rfl, rfl, rfl, hvalue, hversion⟩
    exact ⟨_, rfl, _, rfl, _, rfl, _, rfl, _, rfl, _, rfl, _,
      (getD_map_eq_some_iff fun _ => byte?_eq_some_iff).2 hvalue, _,
      (getD_map_eq_some_iff fun _ => word?_eq_some_iff).2 hversion, rfl⟩

/-! ## What may be left out -/

lemma valueBytes_mem_defaults :
    ("entry_value_size_in_bytes", Json.Scalar.nat p.valueBytes.toNat) ∈ defaults ↔
      p.valueBytes = 0 := by
  simp [defaults, ← UInt8.toNat_inj]

lemma version_mem_defaults :
    ("version_number", Json.Scalar.nat p.version.toNat) ∈ defaults ↔ p.version = 0 := by
  simp [defaults, ← UInt32.toNat_inj]

/-! ## Lists of parameters -/

/-- No more than two parameters are left out. -/
lemma six_le_of_drop {k : Nat} (h : ∀ m ∈ p.members.drop k, m ∈ defaults) : 6 ≤ k := by
  by_contra hshort
  rw [Nat.not_le] at hshort
  have hsixth : ("is_allowed_list", Json.Scalar.bool p.allowedList) ∈ p.members.drop 5 :=
    List.mem_cons_self
  have hdrop : p.members.drop 5 = (p.members.drop k).drop (5 - k) := by
    rw [List.drop_drop, Nat.add_sub_cancel' (by omega)]
  rw [hdrop] at hsixth
  have hdefault := h _ (List.mem_of_mem_drop hsixth)
  simp [defaults] at hdefault

/-- The items of a list tell the parameters exactly if these are read from it. -/
lemma tells_array_iff {items : List Json} :
    p.Tells (.array items) ↔ ofJson? (.array items) = some p := by
  constructor
  · intro h
    cases h with
    | @array k hleft =>
      obtain rfl | rfl | hk : k = 6 ∨ k = 7 ∨ 8 ≤ k := by
        have := six_le_of_drop hleft
        omega
      · obtain ⟨hvalue, hversion⟩ := List.forall_mem_cons.1 hleft
        have hvalue := valueBytes_mem_defaults.1 hvalue
        have hversion := version_mem_defaults.1 (hversion _ List.mem_cons_self)
        exact ofItems?_eq_some_iff.2 ⟨rfl, rfl, rfl, rfl, rfl, rfl, .inr ⟨rfl, hvalue⟩,
          .inr ⟨rfl, hversion⟩⟩
      · have hversion := (List.forall_mem_cons.1 hleft).1
        exact ofItems?_eq_some_iff.2 ⟨rfl, rfl, rfl, rfl, rfl, rfl, .inl rfl,
          .inr ⟨rfl, version_mem_defaults.1 hversion⟩⟩
      · rw [List.take_of_length_le (show p.members.length ≤ k from hk)]
        exact ofItems?_eq_some_iff.2 ⟨rfl, rfl, rfl, rfl, rfl, rfl, .inl rfl, .inl rfl⟩
  · intro h
    unfold ofJson? at h
    split at h
    · next heq => cases heq
    · next heq =>
      cases heq
      obtain ⟨rfl, rfl, rfl, rfl, rfl, rfl, hvalue, hversion⟩ := ofItems?_eq_some_iff.1 h
      have hleft : ∀ m ∈ p.members.drop 6, m ∈ defaults := by
        have hvalue := hvalue.resolve_left (Option.some_ne_none _).symm
        have hversion := hversion.resolve_left (Option.some_ne_none _).symm
        exact List.forall_mem_cons.2 ⟨valueBytes_mem_defaults.2 hvalue.2,
          List.forall_mem_singleton.2 (version_mem_defaults.2 hversion.2)⟩
      exact @Tells.array _ 6 hleft
    · next heq =>
      cases heq
      obtain ⟨rfl, rfl, rfl, rfl, rfl, rfl, hvalue, hversion⟩ := ofItems?_eq_some_iff.1 h
      have hvalue := hvalue.resolve_right fun hnone => Option.some_ne_none _ hnone.1
      have hversion := hversion.resolve_left (Option.some_ne_none _).symm
      obtain rfl := Option.some.inj hvalue
      exact @Tells.array _ 7 (List.forall_mem_singleton.2 (version_mem_defaults.2 hversion.2))
    · next heq =>
      cases heq
      obtain ⟨rfl, rfl, rfl, rfl, rfl, rfl, hvalue, hversion⟩ := ofItems?_eq_some_iff.1 h
      have hvalue := hvalue.resolve_right fun hnone => Option.some_ne_none _ hnone.1
      have hversion := hversion.resolve_right fun hnone => Option.some_ne_none _ hnone.1
      obtain rfl := Option.some.inj hvalue
      obtain rfl := Option.some.inj hversion
      exact @Tells.array _ 8 fun _ hm => absurd hm List.not_mem_nil
    · exact absurd h (Option.some_ne_none _).symm

/-! ## Objects -/

section Objects

variable {key : String} {s : Json.Scalar}

/-- The members with the key. -/
def under (key : String) (members : List (Option (List Char) × Json)) :
    List (Option (List Char) × Json) := members.filter (·.1 = some key.toList)

lemma member?_eq_some_none_iff : member? members key = some none ↔ under key members = [] := by
  rw [member?, under]
  split
  · next hnone => exact ⟨fun _ => hnone, fun _ => rfl⟩
  · next hone => simp [hone]
  · next hnone _ => exact ⟨fun h => absurd h (Option.some_ne_none _).symm, fun h => absurd h hnone⟩

lemma member?_eq_some_some_iff :
    member? members key = some (some value) ↔ under key members = [(some key.toList, value)] := by
  rw [member?, under]
  split
  · next hnone => simp [hnone]
  · next key' value' hone =>
    have hkey : key' = some key.toList := by
      have hmem : (key', value') ∈ members.filter (·.1 = some key.toList) :=
        hone ▸ List.mem_singleton_self _
      exact of_decide_eq_true (List.mem_filter.1 hmem).2
    rw [hone, hkey]
    simp
  · next hmany =>
    exact ⟨fun h => absurd h (Option.some_ne_none _).symm, fun h => absurd h (hmany _ _)⟩

/-- The member of an object is told: it is the only one with its key, or may be left out and is. -/
def IsTold (m : String × Json.Scalar) (members : List (Option (List Char) × Json)) : Prop :=
  under m.1 members = [memberOf m] ∨ m ∈ defaults ∧ under m.1 members = []

/-- A member is told as the reader looks for it. -/
lemma isTold_iff : IsTold (key, s) members ↔ ∃ found, member? members key = some found ∧
    (found = some s.json ∨ found = none ∧ (key, s) ∈ defaults) := by
  constructor
  · rintro (hone | ⟨hdefault, hnone⟩)
    · exact ⟨_, member?_eq_some_some_iff.2 hone, .inl rfl⟩
    · exact ⟨_, member?_eq_some_none_iff.2 hnone, .inr ⟨rfl, hdefault⟩⟩
  · rintro ⟨found, hfound, rfl | ⟨rfl, hdefault⟩⟩
    · exact .inl (member?_eq_some_some_iff.1 hfound)
    · exact .inr ⟨hdefault, member?_eq_some_none_iff.1 hfound⟩

/-- A member that may not be left out is there. -/
lemma member?_of_isTold (hkey : key ∉ defaults.map Prod.fst) (h : IsTold (key, s) members) :
    member? members key = some (some s.json) := by
  obtain ⟨found, hfound, rfl | ⟨-, hdefault⟩⟩ := isTold_iff.1 h
  · exact hfound
  · exact absurd (List.mem_map_of_mem hdefault) hkey

/-- Parameters are read from an object exactly if all keys are texts and each member is told. -/
lemma ofJson?_object_eq_some_iff :
    ofJson? (.object members) = some p ↔ (∀ m ∈ members, m.1 ≠ none) ∧
      ∀ m ∈ p.members, IsTold m members := by
  unfold ofJson?
  simp only [Option.bind_eq_bind]
  by_cases hnone : (members.any (·.1.isNone)) = true
  · rw [if_pos hnone]
    obtain ⟨m, hm, hnone⟩ := List.any_eq_true.1 hnone
    exact ⟨fun h => absurd h (Option.some_ne_none _).symm,
      fun h => absurd (Option.isNone_iff_eq_none.1 hnone) (h.1 m hm)⟩
  · rw [if_neg hnone]
    have hkeys : ∀ m ∈ members, m.1 ≠ none := fun m hm hkey =>
      hnone (List.any_eq_true.2 ⟨m, hm, Option.isNone_iff_eq_none.2 hkey⟩)
    simp only [Option.bind_eq_some_iff, ofItems?_eq_some_iff, ← valueBytes_mem_defaults,
      ← version_mem_defaults, Params.members, List.forall_mem_cons]
    constructor
    · rintro ⟨_, hlevel, a, rfl, _, hupper, b, rfl, _, hlower, c, rfl, _, hoffset, d, rfl,
        _, hrecord, e, rfl, _, hallowed, f, rfl, value, hvalue, version, hversion, rfl, rfl, rfl,
        rfl, rfl, rfl, hvalue', hversion'⟩
      exact ⟨hkeys, isTold_iff.2 ⟨_, hlevel, .inl rfl⟩, isTold_iff.2 ⟨_, hupper, .inl rfl⟩,
        isTold_iff.2 ⟨_, hlower, .inl rfl⟩, isTold_iff.2 ⟨_, hoffset, .inl rfl⟩,
        isTold_iff.2 ⟨_, hrecord, .inl rfl⟩, isTold_iff.2 ⟨_, hallowed, .inl rfl⟩,
        isTold_iff.2 ⟨_, hvalue, hvalue'⟩, isTold_iff.2 ⟨_, hversion, hversion'⟩,
        List.forall_mem_nil _⟩
    · rintro ⟨-, hlevel, hupper, hlower, hoffset, hrecord, hallowed, hvalue, hversion, -⟩
      obtain ⟨value, hvalue, hvalue'⟩ := isTold_iff.1 hvalue
      obtain ⟨version, hversion, hversion'⟩ := isTold_iff.1 hversion
      exact ⟨_, member?_of_isTold (by decide) hlevel, _, rfl,
        _, member?_of_isTold (by decide) hupper, _, rfl,
        _, member?_of_isTold (by decide) hlower, _, rfl,
        _, member?_of_isTold (by decide) hoffset, _, rfl,
        _, member?_of_isTold (by decide) hrecord, _, rfl,
        _, member?_of_isTold (by decide) hallowed, _, rfl,
        value, hvalue, version, hversion, rfl, rfl, rfl, rfl, rfl, rfl, hvalue', hversion'⟩

/-- Different parameters have different keys. -/
lemma nodup_keys (p : Params) : (p.members.map Prod.fst).Nodup := by
  simp [Params.members]

section Known

variable {m : String × Json.Scalar} {known told : List (String × Json.Scalar)}

lemma under_cons (key : String) (m : Option (List Char) × Json) :
    under key (m :: members) =
      if m.1 = some key.toList then m :: under key members else under key members := by
  rw [under, List.filter_cons]
  simp only [decide_eq_true_eq]
  rfl

lemma under_append (key : String) (front back : List (Option (List Char) × Json)) :
    under key (front ++ back) = under key front ++ under key back :=
  List.filter_append front back

lemma under_eq_nil_iff : under key members = [] ↔ ∀ m ∈ members, m.1 ≠ some key.toList := by
  simp [under, List.filter_eq_nil_iff]

lemma under_memberOf_eq_nil (h : ∀ m ∈ told, m.1 ≠ key) : under key (told.map memberOf) = [] := by
  rw [under_eq_nil_iff, List.forall_mem_map]
  exact fun m hm heq => h m hm (String.toList_inj.1 (Option.some.inj heq))

/-- Only one of the members with different keys has the key. -/
lemma under_memberOf (hnodup : (told.map Prod.fst).Nodup) (hm : m ∈ told) :
    under m.1 (told.map memberOf) = [memberOf m] := by
  induction told with
  | nil => exact absurd hm List.not_mem_nil
  | cons first told ih =>
    obtain ⟨hnew, hnodup⟩ := List.nodup_cons.1 hnodup
    have hnew : ∀ x ∈ told, x.1 ≠ first.1 := fun x hx heq =>
      hnew (heq ▸ List.mem_map_of_mem hx)
    rcases List.mem_cons.1 hm with rfl | hm
    · have hself : (memberOf m).1 = some m.1.toList := rfl
      rw [List.map_cons, under_cons, if_pos hself, under_memberOf_eq_nil hnew]
    · have hne : (memberOf first).1 ≠ some m.1.toList := fun heq =>
        hnew m hm (String.toList_inj.1 (Option.some.inj heq)).symm
      rw [List.map_cons, under_cons, if_neg hne, ih hnodup hm]

/-- Members that are told are held. -/
lemma holds_of_isTold (hnodup : (known.map Prod.fst).Nodup) (hkeys : ∀ m ∈ members, m.1 ≠ none)
    (h : ∀ m ∈ known, IsTold m members) : Holds members known := by
  induction known generalizing members with
  | nil =>
    refine ⟨[], members, .refl _, .slnil, fun _ hm => absurd hm List.not_mem_nil, fun m hm => ?_⟩
    obtain ⟨key, hkey⟩ := Option.ne_none_iff_exists'.1 (hkeys m hm)
    exact ⟨key, hkey, fun _ hm => absurd hm List.not_mem_nil⟩
  | cons m known ih =>
    obtain ⟨hnew, hnodup⟩ := List.nodup_cons.1 hnodup
    -- the members with other keys are told by the known ones behind the first
    let rest := members.filter fun other => !decide (other.1 = some m.1.toList)
    have hperm : members.Perm (under m.1 members ++ rest) :=
      (List.filter_append_perm _ members).symm
    have hunder : ∀ x ∈ known, under x.1 rest = under x.1 members := by
      intro x hx
      have hne : x.1.toList ≠ m.1.toList := fun heq =>
        hnew (String.toList_inj.1 heq ▸ List.mem_map_of_mem hx)
      rw [under, List.filter_filter]
      refine List.filter_congr fun other _ => ?_
      have hother : other.1 = some x.1.toList → other.1 ≠ some m.1.toList := fun hx hm =>
        hne (Option.some.inj (hx.symm.trans hm))
      simpa using hother
    obtain ⟨told, others, hrest, hsub, htold, hothers⟩ := ih hnodup
      (fun other hother => hkeys other (List.mem_of_mem_filter hother))
      (fun x hx => by rw [IsTold, hunder x hx]; exact h x (List.mem_cons_of_mem _ hx))
    have hothers : ∀ other ∈ others, ∃ key, other.1 = some key ∧
        ∀ x ∈ m :: known, x.1.toList ≠ key := by
      intro other hother
      obtain ⟨key, hkey, hne⟩ := hothers other hother
      refine ⟨key, hkey, List.forall_mem_cons.2 ⟨?_, hne⟩⟩
      rintro rfl
      have hmem : other ∈ rest := hrest.mem_iff.2 (List.mem_append_right _ hother)
      simpa [hkey] using (List.mem_filter.1 hmem).2
    rcases h m List.mem_cons_self with hone | ⟨hdefault, hnone⟩
    · refine ⟨m :: told, others, ?_, hsub.cons_cons m, ?_, hothers⟩
      · rw [hone] at hperm
        exact hperm.trans (hrest.cons _)
      · exact List.forall_mem_cons.2 ⟨.inl List.mem_cons_self,
          fun x hx => (htold x hx).imp_left (List.mem_cons_of_mem m)⟩
    · refine ⟨told, others, ?_, hsub.cons m, ?_, hothers⟩
      · rw [hnone] at hperm
        exact hperm.trans hrest
      · exact List.forall_mem_cons.2 ⟨.inr hdefault, htold⟩

/-- Members that are held are told. -/
lemma isTold_of_holds (hnodup : (known.map Prod.fst).Nodup) (h : Holds members known)
    (hm : m ∈ known) : IsTold m members := by
  obtain ⟨told, others, hperm, hsub, htold, hothers⟩ := h
  have hothers : under m.1 others = [] := under_eq_nil_iff.2 fun other hother heq => by
    obtain ⟨key, hkey, hne⟩ := hothers other hother
    exact hne m hm (Option.some.inj (heq.symm.trans hkey))
  have hunder : (under m.1 members).Perm (under m.1 (told.map memberOf)) := by
    have hfilter := hperm.filter fun other => other.1 = some m.1.toList
    rwa [← under, ← under, under_append, hothers, List.append_nil] at hfilter
  by_cases hmem : m ∈ told
  · rw [under_memberOf (hnodup.sublist (hsub.map _)) hmem] at hunder
    exact .inl (List.perm_singleton.1 hunder)
  · have hnone : under m.1 (told.map memberOf) = [] := under_memberOf_eq_nil fun x hx heq =>
      hmem (List.inj_on_of_nodup_map hnodup (hsub.subset hx) hm heq ▸ hx)
    rw [hnone] at hunder
    exact .inr ⟨(htold m hm).resolve_left hmem, hunder.eq_nil⟩

/-- The keys of members that are held, or stand among these, are texts. -/
lemma key_ne_none_of_holds (h : Holds members known) : ∀ m ∈ members, m.1 ≠ none := by
  obtain ⟨told, others, hperm, -, -, hothers⟩ := h
  intro m hm
  rcases List.mem_append.1 (hperm.mem_iff.1 hm) with htold | hother
  · obtain ⟨x, -, rfl⟩ := List.mem_map.1 htold
    exact Option.some_ne_none _
  · obtain ⟨key, hkey, -⟩ := hothers m hother
    exact hkey ▸ Option.some_ne_none _

end Known

/-- What a value tells is what is read from it. -/
theorem tells_iff : p.Tells value ↔ ofJson? value = some p := by
  cases value with
  | object members =>
    rw [ofJson?_object_eq_some_iff]
    constructor
    · rintro (@⟨members, h⟩)
      exact ⟨key_ne_none_of_holds h, fun m hm => isTold_of_holds p.nodup_keys h hm⟩
    · exact fun ⟨hkeys, h⟩ => .object (holds_of_isTold p.nodup_keys hkeys h)
  | array items => exact tells_array_iff
  | _ => exact ⟨fun h => (nomatch h), fun h => absurd h (Option.some_ne_none _).symm⟩

end Objects

end Params

namespace Format

variable {f : Format} {p : Params} {text : List Char} {value : Json}

/-! ## Texts -/

/-- The keys of parameters need no escapes. -/
lemma plain_keys (p : Params) : ∀ m ∈ p.members, ∀ c ∈ m.1.toList, Json.IsPlain c := by
  have hplain : ((default : Params).members.map Prod.fst).all fun key =>
      key.toList.all fun c => decide (Json.IsPlain c) := by
    decide
  intro m hm c hc
  have hmem : m.1 ∈ p.members.map Prod.fst := List.mem_map_of_mem hm
  have hkey := List.all_eq_true.1 hplain m.1 hmem
  exact of_decide_eq_true (List.all_eq_true.1 hkey c hc)

/-- Parameters are written as an object that has them as its members. -/
lemma spellsElement_compact (p : Params) :
    Json.SpellsElement (Json.compact p.members) (.object (p.members.map memberOf)) :=
  (Json.spells_compact (plain_keys p)).element

/-- All members are held by themselves. -/
lemma holds_members (p : Params) : Params.Holds (p.members.map memberOf) p.members :=
  ⟨p.members, [], by rw [List.append_nil], .refl _, fun _ hm => .inl hm,
    fun _ hm => absurd hm List.not_mem_nil⟩

/-- A text that tells parameters is read as these are judged. -/
lemma ofJson_of_tells (htext : Json.SpellsElement text value) (htells : p.Tells value) :
    ofJson text = (ofParams p).mapError fun fault => .json (.invalid fault) := by
  obtain ⟨rest, hread, hrest⟩ := Json.spellsElement_iff.1 htext
  rw [ofJson, hread]
  simp only [Params.tells_iff.1 htells, hrest]
  cases ofParams p <;> rfl

/-- A text that is read as a format tells its parameters. -/
lemma tells_of_ofJson (h : ofJson text = .ok f) :
    ∃ value, Json.SpellsElement text value ∧ f.params.Tells value := by
  rw [ofJson] at h
  split at h
  · exact nomatch h
  · next value rest hread =>
    split at h
    · exact nomatch h
    · next p htells =>
      split at h
      · exact nomatch h
      · next f' hf =>
        split at h
        · next hrest =>
          obtain rfl := Except.ok.inj h
          rw [← ofParams_eq_ok_iff.1 hf] at htells
          exact ⟨value, Json.spellsElement_iff.2 ⟨rest, hread, List.isEmpty_iff.1 hrest⟩,
            Params.tells_iff.2 htells⟩
        · exact nomatch h

/-- **Formats and their JSON texts agree.**

* A format is read back from the text that it is written as.
* It is read from any text of an object that holds its parameters: in any order, with any blanks,
  without the size of values and the version where these are zero, and also among other members.
* A text that is read as a format tells the parameters of the format, and these pass the rules.
* A text that tells parameters is read as these are judged: if they break a rule, it is refused for
  the first rule that they break. -/
theorem ofJson_exact :
    (∀ p f, ofParams p = .ok f → ofJson f.toJson = .ok f) ∧
      (∀ f text members, Json.SpellsElement text (.object members) →
        Params.Holds members f.params.members → ofJson text = .ok f) ∧
      (∀ text f, ofJson text = .ok f → ofParams f.params = .ok f ∧
        ∃ value, Json.SpellsElement text value ∧ f.params.Tells value) ∧
      ∀ text value p, Json.SpellsElement text value → p.Tells value →
        ofJson text = (ofParams p).mapError fun fault => .json (.invalid fault) := by
  have hholds : ∀ f text members, Json.SpellsElement text (.object members) →
      Params.Holds members f.params.members → ofJson text = .ok f := by
    intro f text members htext hmembers
    rw [ofJson_of_tells htext (.object hmembers), ofParams_params]
    rfl
  refine ⟨fun p f _ => ?_, hholds, fun text f h => ⟨ofParams_params f, tells_of_ofJson h⟩,
    fun text value p => ofJson_of_tells⟩
  exact hholds f f.toJson _ (spellsElement_compact f.params) (holds_members f.params)

/-- The parameters of a format of level twelve. -/
def twelveParams : Params :=
  { level := 12, prefixBits := 11, suffixBits := 16, blockOffset := 5, recordBits := 40
    allowedList := true }

/-- Six members of these in the opposite order, behind one that is none of them. -/
def shuffledMembers : List (String × Json.Scalar) :=
  ("comment", .nat 1) :: (twelveParams.members.take 6).reverse

/-- The shuffled members with blanks around them are read as a format, and so is what this is
written as.  With one bit more in the suffix, the parameters are refused. -/
theorem ofJson_exact_shuffled :
    (∃ f, ofParams twelveParams = .ok f ∧ ofJson f.toJson = .ok f ∧
      ofJson ('\n' :: (Json.compact shuffledMembers ++ [' '])) = .ok f ∧
      ∃ value, Json.SpellsElement f.toJson value ∧ f.params.Tells value) ∧
      ofJson (Json.compact { twelveParams with suffixBits := 17 }.members) =
        .error (.json (.invalid (.bitSum 11 17 27 12))) := by
  obtain ⟨hback, hholds, htold, hjudged⟩ := ofJson_exact
  constructor
  · let f : Format := ⟨twelveParams, Params.fault?_eq_none_iff.1 (by decide)⟩
    have hf : ofParams twelveParams = .ok f := ofParams_params f
    have hread := hback _ f hf
    refine ⟨f, hf, hread, hholds f _ (shuffledMembers.map memberOf) ?_ ?_, (htold _ f hread).2⟩
    · have hplain : shuffledMembers.all fun m =>
          m.1.toList.all fun c => decide (Json.IsPlain c) := by
        decide
      have hspells : Json.Spells (Json.compact shuffledMembers) _ :=
        Json.spells_compact fun m hm c hc => of_decide_eq_true
          (List.all_eq_true.1 (List.all_eq_true.1 hplain m hm) c hc)
      exact @Json.SpellsElement.mk ['\n'] _ [' '] _ (by simp [Json.Blank]) hspells
        (by simp [Json.Blank])
    · refine ⟨twelveParams.members.take 6, [memberOf ("comment", .nat 1)], ?_,
        List.take_sublist 6 _, by decide, ?_⟩
      · rw [shuffledMembers, List.map_cons, List.map_reverse]
        exact ((List.reverse_perm _).cons _).trans (List.perm_append_singleton _ _).symm
      · rw [List.forall_mem_singleton]
        exact ⟨_, rfl, by decide⟩
  · have hfault : ({ twelveParams with suffixBits := 17 } : Params).fault? =
        some (.bitSum 11 17 27 12) := by
      decide
    rw [hjudged _ _ _ (spellsElement_compact _) (.object (holds_members _)),
      ofParams_eq_error_iff.2 hfault]
    rfl

end Format

end CellIndex
