import LogRouter.Route.Table
import Mathlib.Data.List.Nodup
import Mathlib.Tactic.Common

/-!
# The order of the rules

* `buckets`: the elements of a list key by key, those of one key in the order of the list.
* `buckets_perm`: buckets lose and repeat nothing.
* **`arranged_eq_buckets`**: sorting the rules by their keys puts `all` first, then the severities
  from the least on, and leaves the rules of one key in their order.
-/

namespace LogRouter

open List

/-! ## Buckets -/

section Buckets

variable {α κ : Type} [DecidableEq κ] (key : α → κ)

/-- The elements of a list key by key, those of one key in the order of the list. -/
def buckets (keys : List κ) (l : List α) : List α := keys.flatMap fun k => l.filter (key · = k)

theorem buckets_cons (k : κ) (keys : List κ) (l : List α) :
    buckets key (k :: keys) l = l.filter (key · = k) ++ buckets key keys l := rfl

theorem buckets_filter_ne {k : κ} {keys : List κ} (hk : k ∉ keys) (l : List α) :
    buckets key keys (l.filter (key · ≠ k)) = buckets key keys l := by
  refine List.flatMap_congr fun k' hk' => ?_
  rw [List.filter_filter]
  refine List.filter_congr fun a _ => ?_
  by_cases ha : key a = k'
  · have : key a ≠ k := fun h => hk (h ▸ ha ▸ hk')
    simp [ha, ha ▸ this]
  · simp [ha]

theorem mem_keys_of_mem_filter_ne {k : κ} {keys : List κ} {l : List α}
    (hl : ∀ a ∈ l, key a ∈ k :: keys) : ∀ a ∈ l.filter (key · ≠ k), key a ∈ keys := by
  intro a ha
  rw [List.mem_filter, decide_eq_true_eq] at ha
  exact (List.mem_cons.mp (hl a ha.1)).resolve_left ha.2

/-- **Buckets lose and repeat nothing.** -/
theorem buckets_perm : ∀ {keys : List κ} {l : List α}, keys.Nodup → (∀ a ∈ l, key a ∈ keys) →
    buckets key keys l ~ l
  | [], l, _, hl => by
    have : l = [] := List.eq_nil_iff_forall_not_mem.mpr fun a ha => by simpa using hl a ha
    rw [this]
    rfl
  | k :: keys, l, hn, hl => by
    obtain ⟨hk, hn⟩ := List.nodup_cons.mp hn
    have ih := buckets_perm (l := l.filter (key · ≠ k)) hn (mem_keys_of_mem_filter_ne key hl)
    rw [buckets_filter_ne key hk] at ih
    rw [buckets_cons]
    refine (ih.append_left _).trans ?_
    have := List.filter_append_perm (fun a => decide (key a = k)) l
    simpa using this

theorem filter_append_filter_not {p : α → Bool} : ∀ {l : List α},
    l.Pairwise (fun a b => p b = true → p a = true) → l.filter p ++ l.filter (fun a => !p a) = l
  | [], _ => rfl
  | a :: l, h => by
    obtain ⟨ha, hl⟩ := List.pairwise_cons.mp h
    by_cases hp : p a = true
    · rw [List.filter_cons_of_pos hp, List.filter_cons_of_neg (by simp [hp]), List.cons_append,
        filter_append_filter_not hl]
    · have hnone : ∀ b ∈ l, ¬ p b = true := fun b hb hpb => hp (ha b hb hpb)
      rw [List.filter_cons_of_neg hp, List.filter_cons_of_pos (by simp [hp]),
        List.filter_eq_nil_iff.mpr hnone, List.nil_append,
        List.filter_eq_self.mpr fun b hb => by simpa using hnone b hb]

theorem buckets_eq_self (rank : κ → Nat) : ∀ {keys : List κ} {l : List α},
    keys.Pairwise (fun a b => rank a < rank b) →
    l.Pairwise (fun a b => rank (key a) ≤ rank (key b)) → (∀ a ∈ l, key a ∈ keys) →
    buckets key keys l = l
  | [], l, _, _, hl => by
    have : l = [] := List.eq_nil_iff_forall_not_mem.mpr fun a ha => by simpa using hl a ha
    rw [this]
    rfl
  | k :: keys, l, hkeys, hsorted, hl => by
    obtain ⟨hmin, hkeys⟩ := List.pairwise_cons.mp hkeys
    have hk : k ∉ keys := fun h => absurd (hmin k h) (Nat.lt_irrefl _)
    have ih := buckets_eq_self rank (l := l.filter (key · ≠ k)) hkeys
      (hsorted.sublist List.filter_sublist) (mem_keys_of_mem_filter_ne key hl)
    rw [buckets_filter_ne key hk] at ih
    rw [buckets_cons, ih]
    -- an element of the least key has nothing but that key in front of it
    have hfront : l.Pairwise (fun a b => decide (key b = k) = true → decide (key a = k) = true) := by
      refine hsorted.imp_of_mem fun {a b} ha _ hab hb => ?_
      rw [decide_eq_true_eq] at hb ⊢
      rcases List.mem_cons.mp (hl a ha) with h | h
      · exact h
      · have := hmin _ h
        rw [hb] at hab
        omega
    simpa using filter_append_filter_not hfront

end Buckets

/-! ## The order of the keys -/

namespace LevelKey

/-- The keys in the order of delivery: `all`, then the severities from the least on. -/
def sequence : List LevelKey := all :: Severity.all.map level

theorem mem_sequence (key : LevelKey) : key ∈ sequence := by
  cases key with
  | all => exact List.mem_cons_self
  | level s => exact List.mem_cons_of_mem _ (List.mem_map_of_mem (Severity.mem_all s))

theorem sequence_pairwise : sequence.Pairwise (fun a b => a.order < b.order) := by decide

end LevelKey

namespace RouteTable

/-- **Sorted rules go key by key**, and the rules of one key stay in their order. -/
theorem arranged_eq_buckets (rules : List KeyedRule) :
    arranged rules = buckets KeyedRule.key LevelKey.sequence rules := by
  have htrans : ∀ a b c : KeyedRule, decide (a.key.order ≤ b.key.order) = true →
      decide (b.key.order ≤ c.key.order) = true → decide (a.key.order ≤ c.key.order) = true := by
    intro a b c hab hbc
    rw [decide_eq_true_eq] at hab hbc ⊢
    exact Nat.le_trans hab hbc
  have htotal : ∀ a b : KeyedRule,
      (decide (a.key.order ≤ b.key.order) || decide (b.key.order ≤ a.key.order)) = true := by
    intro a b
    rw [Bool.or_eq_true, decide_eq_true_eq, decide_eq_true_eq]
    exact Nat.le_total _ _
  have hsorted : (arranged rules).Pairwise (fun a b => a.key.order ≤ b.key.order) :=
    (List.pairwise_mergeSort htrans htotal rules).imp fun h => of_decide_eq_true h
  rw [← buckets_eq_self KeyedRule.key LevelKey.order LevelKey.sequence_pairwise hsorted
    fun a _ => LevelKey.mem_sequence _]
  refine List.flatMap_congr fun k _ => ?_
  -- the rules of one key are sorted as they stand, so the stable sort keeps them in their order
  have hkey : (rules.filter (·.key = k)).Pairwise
      (fun a b => decide (a.key.order ≤ b.key.order) = true) := by
    refine List.Pairwise.imp_of_mem ?_ (List.pairwise_of_forall fun _ _ => trivial)
    intro a b ha hb _
    rw [List.mem_filter, decide_eq_true_eq] at ha hb
    exact decide_eq_true (Nat.le_of_eq (congrArg LevelKey.order (ha.2.trans hb.2.symm)))
  have hsub := (List.sublist_mergeSort htrans htotal hkey List.filter_sublist).filter (·.key = k)
  rw [List.filter_filter] at hsub
  simp only [Bool.and_self] at hsub
  refine (hsub.eq_of_length ?_).symm
  exact ((List.mergeSort_perm rules _).filter _).length_eq.symm

end RouteTable

end LogRouter
