import Mathlib.Data.List.Nodup
import Mathlib.Tactic.Common

/-!
# First occurrences

`eraseDups` keeps the first of equal elements.

* `eraseDups_map_eraseDups`, `map_eraseDups_of_injOn`: a map may be taken before or after it.
* `nodup_eraseDups`, `eraseDups_of_nodup`: nothing is left twice, and nothing else is lost.
* `eraseDups_concat`: an element behind a list is new or changes nothing.
-/

namespace LogRouter

variable {α β : Type} [DecidableEq α] [DecidableEq β]

theorem eraseDups_filter (p : α → Bool) : ∀ l : List α,
    (l.filter p).eraseDups = l.eraseDups.filter p
  | [] => rfl
  | a :: l => by
    have ih := eraseDups_filter p (l.filter fun b => !b == a)
    rw [List.eraseDups_cons]
    by_cases ha : p a = true
    · rw [List.filter_cons_of_pos ha, List.filter_cons_of_pos ha, List.eraseDups_cons, ← ih,
        List.filter_filter, List.filter_filter]
      simp only [Bool.and_comm]
    · rw [List.filter_cons_of_neg ha, List.filter_cons_of_neg ha, ← ih, List.filter_filter]
      congr 1
      refine List.filter_congr fun b _ => ?_
      by_cases hb : b = a
      · simp [hb, ha]
      · simp [hb]
termination_by l => l.length
decreasing_by
  have := List.length_filter_le (fun b => !b == a) l
  simp only [List.length_cons]; omega

theorem eraseDups_map_eraseDups (f : α → β) : ∀ l : List α,
    (l.eraseDups.map f).eraseDups = (l.map f).eraseDups
  | [] => rfl
  | a :: l => by
    have ih := eraseDups_map_eraseDups f (l.filter fun b => !b == a)
    rw [List.eraseDups_cons, List.map_cons, List.map_cons, List.eraseDups_cons, List.eraseDups_cons,
      eraseDups_filter, ih, ← eraseDups_filter, List.filter_map, List.filter_map, List.filter_filter]
    -- what equals `a` has the image of `a`, and goes with it
    congr 3
    refine List.filter_congr fun b _ => ?_
    by_cases hb : b = a
    · simp [hb]
    · simp [hb]
termination_by l => l.length
decreasing_by
  have := List.length_filter_le (fun b => !b == a) l
  simp only [List.length_cons]; omega

theorem nodup_eraseDups : ∀ l : List α, l.eraseDups.Nodup
  | [] => List.nodup_nil
  | a :: l => by
    rw [List.eraseDups_cons, List.nodup_cons]
    exact ⟨by simp [List.mem_eraseDups], nodup_eraseDups _⟩
termination_by l => l.length
decreasing_by
  have := List.length_filter_le (fun b => !b == a) l
  simp only [List.length_cons]; omega

theorem eraseDups_of_nodup : ∀ {l : List α}, l.Nodup → l.eraseDups = l
  | [], _ => rfl
  | a :: l, h => by
    obtain ⟨ha, hl⟩ := List.nodup_cons.mp h
    have hself : (l.filter fun b => !b == a) = l :=
      List.filter_eq_self.mpr fun b hb => by
        have : b ≠ a := fun hba => ha (hba ▸ hb)
        simp [this]
    rw [List.eraseDups_cons, hself, eraseDups_of_nodup hl]

theorem eraseDups_concat (l : List α) (a : α) :
    (l ++ [a]).eraseDups = if a ∈ l then l.eraseDups else l.eraseDups ++ [a] := by
  have hrest : ([a] : List α).removeAll l = if a ∈ l then [] else [a] := by
    simp [List.removeAll, List.filter_cons]
  rw [List.eraseDups_append, hrest]
  split_ifs
  · exact List.append_nil _
  · rfl

theorem map_eraseDups_of_injOn {f : α → β} {l : List α}
    (hf : ∀ a ∈ l, ∀ b ∈ l, f a = f b → a = b) : l.eraseDups.map f = (l.map f).eraseDups := by
  have hn : (l.eraseDups.map f).Nodup :=
    List.Nodup.map_on
      (fun a ha b hb h => hf a (List.mem_eraseDups.mp ha) b (List.mem_eraseDups.mp hb) h)
      (nodup_eraseDups l)
  rw [← eraseDups_map_eraseDups, eraseDups_of_nodup hn]

theorem count_flatMap_eraseDups {γ : Type} (f : γ → List α) (a : α) : ∀ l : List γ,
    (l.flatMap fun b => (f b).eraseDups).count a = l.countP fun b => decide (a ∈ f b)
  | [] => rfl
  | b :: l => by
    have hone : (f b).eraseDups.count a = if decide (a ∈ f b) then 1 else 0 := by
      rw [(nodup_eraseDups _).count]
      exact if_congr (by simp [List.mem_eraseDups]) rfl rfl
    rw [List.flatMap_cons, List.count_append, hone, count_flatMap_eraseDups f a l,
      List.countP_cons, Nat.add_comm]

theorem filterMap_eq_map_of_some {α β : Type} {f : α → Option β} {g : α → β} {l : List α}
    (h : ∀ a ∈ l, f a = some (g a)) : l.filterMap f = l.map g := by
  rw [List.filterMap_congr h, List.filterMap_eq_map']

end LogRouter
