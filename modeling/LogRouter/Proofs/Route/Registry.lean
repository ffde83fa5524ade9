import LogRouter.Route.Registry
import Mathlib.Data.List.Nodup
import Mathlib.Tactic.Common

/-!
# Dense registries

* `Registry.Dense`: the look-up and the list of destinations say the same, and every place of the
  list has a number.
* `dense_register`, `dense_registerAll`: registering keeps a registry dense and only adds
  destinations at the end, so a number stays the number of its destination for good.
* `Dense.nodup`: no destination is listed twice.
-/

namespace LogRouter

namespace WriterId

theorem place_injective {a b : WriterId} (h : a.place = b.place) : a = b := by
  obtain ⟨a⟩ := a
  obtain ⟨b⟩ := b
  exact congrArg WriterId.mk (UInt16.toNat_inj.mp h)

theorem place_mk {n : Nat} (h : n ≤ maxIndex) : (WriterId.mk n.toUInt16).place = n := by
  unfold maxIndex at h
  change n % 65536 = n
  omega

end WriterId

namespace Registry

/-- The look-up and the list of destinations say the same, and every place has a number. -/
structure Dense (r : Registry) : Prop where
  size_le : r.destinations.size ≤ WriterId.maxIndex + 1
  id?_eq_some_iff : ∀ d id, r.id? d = some id ↔ r.destinations[id.place]? = some d

/-- The destinations of `r` are the first ones of `r'`. -/
def Extends (r' r : Registry) : Prop := r.destinations.toList <+: r'.destinations.toList

theorem Extends.refl (r : Registry) : r.Extends r := List.prefix_rfl

theorem Extends.trans {r₁ r₂ r₃ : Registry} (h₂ : r₃.Extends r₂) (h₁ : r₂.Extends r₁) :
    r₃.Extends r₁ := List.IsPrefix.trans h₁ h₂

theorem Extends.getElem? {r r' : Registry} (h : r'.Extends r) {i : Nat} {d : String}
    (hi : r.destinations[i]? = some d) : r'.destinations[i]? = some d := by
  rw [← Array.getElem?_toList] at hi ⊢
  obtain ⟨tail, ht⟩ := h
  have hlt := (List.getElem?_eq_some_iff.mp hi).1
  rw [← ht, List.getElem?_append_left hlt, hi]

theorem dense_empty : Registry.empty.Dense where
  size_le := Nat.zero_le _
  id?_eq_some_iff d id := by simp [empty, id?]

namespace Dense

variable {r r' : Registry}

theorem mem_of_id? (hr : r.Dense) {d : String} {id : WriterId} (h : r.id? d = some id) :
    d ∈ r.destinations.toList := by
  have h' := (hr.id?_eq_some_iff d id).mp h
  rw [← Array.getElem?_toList] at h'
  exact List.mem_of_getElem? h'

theorem exists_id? (hr : r.Dense) {i : Nat} {d : String} (hi : r.destinations[i]? = some d) :
    ∃ id, r.id? d = some id ∧ id.place = i := by
  have hlt : i < r.destinations.size := (Array.getElem?_eq_some_iff.mp hi).1
  have hplace : (WriterId.mk i.toUInt16).place = i :=
    WriterId.place_mk (by have := hr.size_le; omega)
  refine ⟨⟨i.toUInt16⟩, ?_, hplace⟩
  rw [hr.id?_eq_some_iff, hplace, hi]

theorem id?_of_mem (hr : r.Dense) {d : String} (hd : d ∈ r.destinations.toList) :
    ∃ id, r.id? d = some id ∧ id.place = r.destinations.toList.idxOf d := by
  have hlt := List.idxOf_lt_length_of_mem hd
  have hat : r.destinations[r.destinations.toList.idxOf d]? = some d := by
    rw [← Array.getElem?_toList, List.getElem?_eq_getElem hlt, List.getElem_idxOf]
  exact hr.exists_id? hat

/-- **A number stays the number of its destination.** -/
theorem id?_mono (hr : r.Dense) (hr' : r'.Dense) (h : r'.Extends r) {d : String} {id : WriterId}
    (hd : r.id? d = some id) : r'.id? d = some id := by
  rw [hr'.id?_eq_some_iff]
  exact h.getElem? ((hr.id?_eq_some_iff d id).mp hd)

/-- **No destination is listed twice.** -/
theorem nodup (hr : r.Dense) : r.destinations.toList.Nodup := by
  rw [List.nodup_iff_getElem?_ne_getElem?]
  intro i j hij hj heq
  rw [Array.getElem?_toList, Array.getElem?_toList] at heq
  rw [Array.length_toList] at hj
  have hj' := Array.getElem?_eq_getElem hj
  obtain ⟨a, ha, hai⟩ := hr.exists_id? hj'
  obtain ⟨b, hb, hbi⟩ := hr.exists_id? (heq.trans hj')
  rw [ha, Option.some.injEq] at hb
  subst hb
  omega

end Dense

/-- **Registering keeps a registry dense** and gives the destination its number. -/
theorem dense_register {r r' : Registry} {d : String} {id : WriterId} (hr : r.Dense)
    (h : r.register d = .ok (id, r')) : r'.Dense ∧ r'.Extends r ∧ r'.id? d = some id := by
  unfold register at h
  split at h
  case h_1 known hknown =>
    simp only [Except.ok.injEq, Prod.mk.injEq] at h
    obtain ⟨rfl, rfl⟩ := h
    exact ⟨hr, Extends.refl _, hknown⟩
  case h_2 hnew =>
    split at h
    case isFalse => cases h
    case isTrue hsize =>
      simp only [Except.ok.injEq, Prod.mk.injEq] at h
      obtain ⟨rfl, rfl⟩ := h
      have hplace := WriterId.place_mk hsize
      have hfresh : ∀ i : Nat, r.destinations[i]? ≠ some d := by
        intro i hi
        obtain ⟨known, hknown, _⟩ := hr.exists_id? hi
        rw [hnew] at hknown
        cases hknown
      refine ⟨⟨by simp only [Array.size_push]; omega, ?_⟩, ?_, by simp [id?]⟩
      · intro d' id'
        change (r.ids.insert d _)[d']? = some id' ↔ (r.destinations.push d)[id'.place]? = some d'
        rw [Std.HashMap.getElem?_insert, Array.getElem?_push]
        by_cases hd : d = d'
        · subst hd
          simp only [beq_self_eq_true, if_true, Option.some.injEq]
          constructor
          · rintro rfl
            rw [if_pos hplace]
          · intro h'
            split_ifs at h' with hlast
            · exact WriterId.place_injective (hplace.trans hlast.symm)
            · exact absurd h' (hfresh _)
        · rw [if_neg (by simpa using hd)]
          change r.id? d' = some id' ↔ _
          rw [hr.id?_eq_some_iff]
          split_ifs with hlast
          · rw [hlast, Array.getElem?_eq_none (Nat.le_refl _)]
            simp [hd]
          · rfl
      · exact ⟨[d], by simp⟩

/-- **Registering several destinations** gives each of them its number. -/
theorem dense_registerAll : ∀ {ds : List String} {r r' : Registry} {ids : List WriterId},
    r.Dense → r.registerAll ds = .ok (ids, r') →
      r'.Dense ∧ r'.Extends r ∧ ds.map r'.id? = ids.map some
  | [], r, r', ids, hr, h => by
    simp only [registerAll, Except.ok.injEq, Prod.mk.injEq] at h
    obtain ⟨rfl, rfl⟩ := h
    exact ⟨hr, Extends.refl _, rfl⟩
  | d :: ds, r, r', ids, hr, h => by
    unfold registerAll at h
    split at h
    case h_1 => cases h
    case h_2 id r₁ h₁ =>
      split at h
      case h_1 => cases h
      case h_2 ids' r₂ h₂ =>
        simp only [Except.ok.injEq, Prod.mk.injEq] at h
        obtain ⟨rfl, rfl⟩ := h
        obtain ⟨hd₁, he₁, hid⟩ := dense_register hr h₁
        obtain ⟨hd₂, he₂, hids⟩ := dense_registerAll hd₁ h₂
        refine ⟨hd₂, he₂.trans he₁, ?_⟩
        rw [List.map_cons, List.map_cons, hids, hd₁.id?_mono hd₂ he₂ hid]

end Registry

end LogRouter
