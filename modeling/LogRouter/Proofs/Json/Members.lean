import LogRouter.Json.Value
import Mathlib.Data.Finset.Card
import Mathlib.Data.List.Nodup
import Mathlib.Data.String.Basic

/-!
# Members in order

* `Json.keys`: the keys of members, with repetitions; `Ascending`: each is above the one before.
* `mem_keys_sortMembers`, `ascending_sortMembers`: sorting keeps the keys and puts them in order.
* **`member?_sortMembers`**: of several values under a key the last one is kept.
* `sortMembers_perm`, **`length_sortMembers`**: each key is kept once.
-/

namespace LogRouter.Json

/-- The keys of members. -/
def keys (members : Members) : List String := members.map Prod.fst

@[simp] theorem keys_nil : keys [] = [] := rfl

@[simp] theorem keys_cons (m : String × Json) (members : Members) :
    keys (m :: members) = m.1 :: keys members := rfl

@[simp] theorem keys_append (members members' : Members) :
    keys (members ++ members') = keys members ++ keys members' := List.map_append

/-- Every key is above the one before. -/
def Ascending (members : Members) : Prop := (keys members).Pairwise (· < ·)

instance (members : Members) : Decidable (Ascending members) :=
  inferInstanceAs (Decidable (List.Pairwise _ _))

variable {members : Members} {key k : String} {v : Json}

theorem Ascending.nodup (h : Ascending members) : (keys members).Nodup := h.imp fun hlt => hlt.ne

/-! ## Looking up -/

theorem member?_cons (key : String) (m : String × Json) (members : Members) :
    member? key (m :: members) = if key = m.1 then some m.2 else member? key members := by
  unfold member?
  rw [List.find?_cons]
  by_cases h : key = m.1
  · simp [h]
  · simp [h, beq_eq_false_iff_ne.mpr (Ne.symm h)]

theorem member?_append (key : String) (members members' : Members) :
    member? key (members ++ members') = (member? key members).or (member? key members') := by
  induction members with
  | nil => rfl
  | cons m members ih =>
    rw [List.cons_append, member?_cons, member?_cons, ih]
    split_ifs <;> rfl

theorem member?_eq_none (h : key ∉ keys members) : member? key members = none := by
  induction members with
  | nil => rfl
  | cons m members ih =>
    rw [keys_cons, List.mem_cons, not_or] at h
    rw [member?_cons, if_neg h.1]
    exact ih h.2

theorem member?_of_mem (h : (keys members).Nodup) (hmem : (key, v) ∈ members) :
    member? key members = some v := by
  induction members with
  | nil => cases hmem
  | cons m members ih =>
    obtain ⟨hnot, hnodup⟩ := List.nodup_cons.mp h
    rw [member?_cons]
    rcases List.mem_cons.mp hmem with rfl | hmem
    · exact if_pos rfl
    · have hne : key ≠ m.1 := fun heq => hnot (heq ▸ List.mem_map_of_mem hmem)
      rw [if_neg hne]
      exact ih hnodup hmem

/-! ## Inserting -/

theorem member?_insertMember (key k : String) (v : Json) (members : Members) :
    member? key (insertMember k v members) = if key = k then some v else member? key members := by
  induction members with
  | nil => exact member?_cons key (k, v) []
  | cons m members ih =>
    obtain ⟨k', v'⟩ := m
    unfold insertMember
    by_cases hlt : k < k'
    · rw [if_pos hlt, member?_cons]
    by_cases heq : k = k'
    · rw [if_neg hlt, if_pos heq, member?_cons, member?_cons, heq]
      split_ifs <;> rfl
    · rw [if_neg hlt, if_neg heq, member?_cons, member?_cons, ih]
      by_cases hkey : key = k'
      · simp [hkey, Ne.symm heq]
      · simp [hkey]

theorem mem_keys_insertMember :
    key ∈ keys (insertMember k v members) ↔ key = k ∨ key ∈ keys members := by
  induction members with
  | nil => simp [insertMember]
  | cons m members ih =>
    obtain ⟨k', v'⟩ := m
    unfold insertMember
    by_cases hlt : k < k'
    · simp [hlt]
    by_cases heq : k = k'
    · simp [heq]
    · rw [if_neg hlt, if_neg heq, keys_cons, keys_cons, List.mem_cons, List.mem_cons, ih]
      exact or_left_comm

theorem mem_insertMember {m : String × Json} (h : m ∈ insertMember k v members) :
    m = (k, v) ∨ m ∈ members := by
  induction members with
  | nil => exact Or.inl (List.mem_singleton.mp h)
  | cons m' members ih =>
    unfold insertMember at h
    split_ifs at h
    · exact List.mem_cons.mp h
    · exact (List.mem_cons.mp h).imp_right (List.mem_cons_of_mem _)
    · rcases List.mem_cons.mp h with rfl | h
      · exact Or.inr List.mem_cons_self
      · exact (ih h).imp_right (List.mem_cons_of_mem _)

theorem ascending_insertMember (h : Ascending members) : Ascending (insertMember k v members) := by
  induction members with
  | nil => exact List.pairwise_singleton _ _
  | cons m members ih =>
    obtain ⟨k', v'⟩ := m
    obtain ⟨habove, hrest⟩ := List.pairwise_cons.mp h
    unfold insertMember
    by_cases hlt : k < k'
    · rw [if_pos hlt]
      refine List.pairwise_cons.mpr ⟨fun key hkey => ?_, h⟩
      rcases List.mem_cons.mp hkey with rfl | hkey
      · exact hlt
      · exact hlt.trans (habove key hkey)
    by_cases heq : k = k'
    · rw [if_neg hlt, if_pos heq]
      exact List.pairwise_cons.mpr ⟨heq ▸ habove, hrest⟩
    · rw [if_neg hlt, if_neg heq]
      refine List.pairwise_cons.mpr ⟨fun key hkey => ?_, ih hrest⟩
      rcases mem_keys_insertMember.mp hkey with rfl | hkey
      · exact lt_of_le_of_ne (not_lt.mp hlt) (Ne.symm heq)
      · exact habove key hkey

/-! ## Sorting -/

/-- Puts members into ascending ones, one after the other. -/
def insertAll (acc members : Members) : Members :=
  members.foldl (fun acc (k, v) => insertMember k v acc) acc

theorem ascending_insertAll {acc : Members} (h : Ascending acc) (members : Members) :
    Ascending (insertAll acc members) := by
  induction members generalizing acc with
  | nil => exact h
  | cons m members ih => exact ih (ascending_insertMember h)

theorem mem_keys_insertAll {acc : Members} :
    key ∈ keys (insertAll acc members) ↔ key ∈ keys members ∨ key ∈ keys acc := by
  induction members generalizing acc with
  | nil => simp [insertAll]
  | cons m members ih =>
    change key ∈ keys (insertAll (insertMember m.1 m.2 acc) members) ↔ _
    rw [ih, mem_keys_insertMember, keys_cons, List.mem_cons, or_assoc]
    exact or_left_comm

theorem member?_insertAll (acc members : Members) : member? key (insertAll acc members) =
    (member? key members.reverse).or (member? key acc) := by
  induction members generalizing acc with
  | nil => rfl
  | cons m members ih =>
    change member? key (insertAll (insertMember m.1 m.2 acc) members) = _
    rw [ih, member?_insertMember, List.reverse_cons, member?_append, Option.or_assoc, member?_cons]
    split_ifs <;> rfl

theorem mem_insertAll {acc : Members} {m : String × Json} (h : m ∈ insertAll acc members) :
    m ∈ acc ∨ m ∈ members := by
  induction members generalizing acc with
  | nil => exact Or.inl h
  | cons m' members ih =>
    rcases ih h with hacc | hrest
    · rcases mem_insertMember hacc with rfl | hacc
      · exact Or.inr List.mem_cons_self
      · exact Or.inl hacc
    · exact Or.inr (List.mem_cons_of_mem _ hrest)

theorem ascending_sortMembers (members : Members) : Ascending (sortMembers members) := by
  have hnil : Ascending [] := List.Pairwise.nil
  exact ascending_insertAll hnil members

theorem sortMembers_subset (members : Members) : sortMembers members ⊆ members := fun _ h =>
  (mem_insertAll h).resolve_left List.not_mem_nil

theorem mem_keys_sortMembers : key ∈ keys (sortMembers members) ↔ key ∈ keys members := by
  change key ∈ keys (insertAll [] members) ↔ _
  rw [mem_keys_insertAll]
  exact or_iff_left List.not_mem_nil

/-- **Of several values under a key the last one is kept.** -/
theorem member?_sortMembers (key : String) (members : Members) :
    member? key (sortMembers members) = member? key members.reverse := by
  change member? key (insertAll [] members) = _
  rw [member?_insertAll]
  exact Option.or_none

theorem sortMembers_perm (h : (keys members).Nodup) : (sortMembers members).Perm members := by
  have hsorted : (sortMembers members).Nodup :=
    List.Nodup.of_map _ (ascending_sortMembers members).nodup
  refine (List.perm_ext_iff_of_nodup hsorted (List.Nodup.of_map _ h)).mpr fun m => ?_
  refine ⟨fun hm => sortMembers_subset members hm, fun hm => ?_⟩
  have hkey : m.1 ∈ keys (sortMembers members) := mem_keys_sortMembers.mpr (List.mem_map_of_mem hm)
  obtain ⟨m', hm', heq⟩ := List.mem_map.mp hkey
  rwa [← List.inj_on_of_nodup_map h (sortMembers_subset members hm') hm heq]

/-- **Each key is kept once.** -/
theorem length_sortMembers (members : Members) :
    (sortMembers members).length = (keys members).toFinset.card := by
  have hkeys : (keys (sortMembers members)).toFinset = (keys members).toFinset := by
    ext key
    rw [List.mem_toFinset, List.mem_toFinset, mem_keys_sortMembers]
  rw [← hkeys, List.toFinset_card_of_nodup (ascending_sortMembers members).nodup, keys,
    List.length_map]

end LogRouter.Json
