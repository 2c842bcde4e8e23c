import Mathlib

namespace Harvest.Distinct

variable {α β : Type} [BEq α] [LawfulBEq α] [BEq β] [LawfulBEq β]

theorem nodup_eraseDups (items : List α) : items.eraseDups.Nodup := by
  cases items with
  | nil => simp
  | cons a rest =>
    have others := nodup_eraseDups (rest.filter fun b => !b == a)
    rw [List.eraseDups_cons, List.nodup_cons]
    exact ⟨by simp [List.mem_eraseDups], others⟩
termination_by items.length
decreasing_by exact Nat.lt_succ_of_le (List.length_filter_le _ rest)

omit [LawfulBEq α] in
theorem eraseDups_eq_nil_iff {items : List α} : items.eraseDups = [] ↔ items = [] := by
  cases items <;> simp [List.eraseDups_cons]

theorem eraseDups_filter (p : α → Bool) (items : List α) :
    (items.filter p).eraseDups = items.eraseDups.filter p := by
  cases items with
  | nil => rfl
  | cons a rest =>
    have others := eraseDups_filter p (rest.filter fun b => !b == a)
    rw [List.eraseDups_cons]
    by_cases kept : p a = true
    · rw [List.filter_cons_of_pos kept, List.filter_cons_of_pos kept, List.eraseDups_cons, ← others,
        List.filter_filter, List.filter_filter]
      simp only [Bool.and_comm]
    · rw [List.filter_cons_of_neg kept, List.filter_cons_of_neg kept, ← others, List.filter_filter]
      have same : ∀ b ∈ rest, (p b && !b == a) = p b := by
        intro b _
        by_cases here : b = a <;> simp_all
      rw [List.filter_congr same]
termination_by items.length
decreasing_by exact Nat.lt_succ_of_le (List.length_filter_le _ rest)

theorem eraseDups_map {f : α → β} (injective : Function.Injective f) (items : List α) :
    (items.map f).eraseDups = items.eraseDups.map f := by
  cases items with
  | nil => rfl
  | cons a rest =>
    have others := eraseDups_map injective (rest.filter fun b => !b == a)
    have same : ∀ b ∈ rest, (!f b == f a) = (!b == a) := by
      intro b _
      by_cases here : b = a
      · simp [here]
      · simp [here, injective.ne here]
    rw [List.map_cons, List.eraseDups_cons, List.eraseDups_cons, List.map_cons, ← others,
      List.filter_map]
    exact congrArg (fun kept => f a :: (kept.map f).eraseDups) (List.filter_congr same)
termination_by items.length
decreasing_by exact Nat.lt_succ_of_le (List.length_filter_le _ rest)

end Harvest.Distinct
