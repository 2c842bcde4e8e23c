import Mathlib
import Harvest.Value.Sorted

namespace Harvest

variable {α β : Type}

def InOrder (a b : String × α) : Prop :=
  ¬ b.1 < a.1

instance : DecidableRel (InOrder (α := α)) := fun a b => inferInstanceAs (Decidable (¬ b.1 < a.1))

instance : Std.Total (InOrder (α := α)) where
  total a b := by
    rcases le_total a.1 b.1 with below | above
    · exact .inl (not_lt.2 below)
    · exact .inr (not_lt.2 above)

instance : IsTrans (String × α) InOrder where
  trans _ _ _ first second := not_lt.2 ((not_lt.1 first).trans (not_lt.1 second))

theorem insertBy_eq_orderedInsert (a : String × α) (ms : List (String × α)) :
    insertBy (fun a b => a.1 < b.1) a ms = ms.orderedInsert InOrder a := by
  induction ms with
  | nil => rfl
  | cons b rest ih =>
    by_cases before : InOrder a b
    · have less : ¬ b.1 < a.1 := before
      rw [insertBy, if_neg (by simpa using less), List.orderedInsert_cons, if_pos before]
    · have less : b.1 < a.1 := not_not.1 before
      rw [insertBy, if_pos (decide_eq_true less), ih, List.orderedInsert_cons, if_neg before]

theorem sortByName_eq_insertionSort (ms : List (String × α)) :
    sortByName ms = ms.insertionSort InOrder := by
  induction ms with
  | nil => rfl
  | cons m rest ih =>
    rw [List.insertionSort_cons, ← ih, ← insertBy_eq_orderedInsert]
    rfl

theorem sortByName_perm (ms : List (String × α)) : (sortByName ms).Perm ms := by
  rw [sortByName_eq_insertionSort]
  exact List.perm_insertionSort _ ms

theorem pairwise_sortByName (ms : List (String × α)) : (sortByName ms).Pairwise InOrder := by
  rw [sortByName_eq_insertionSort]
  exact List.pairwise_insertionSort _ ms

theorem sortByName_map (f : String × α → β) (ms : List (String × α)) :
    sortByName (ms.map fun m => (m.1, f m)) = (sortByName ms).map fun m => (m.1, f m) := by
  rw [sortByName_eq_insertionSort, sortByName_eq_insertionSort]
  exact (List.map_insertionSort InOrder InOrder (fun m => (m.1, f m)) ms
    fun _ _ _ _ => Iff.rfl).symm

theorem sortByName_eq_of_perm {as bs : List (String × α)} (same : as.Perm bs)
    (distinct : (Members.keys as).Nodup) : sortByName as = sortByName bs := by
  refine List.Perm.eq_of_pairwise ?_ (pairwise_sortByName as) (pairwise_sortByName bs)
    ((sortByName_perm as).trans (same.trans (sortByName_perm bs).symm))
  intro a b left right below above
  have here : a ∈ as := (sortByName_perm as).mem_iff.1 left
  have there : b ∈ as := same.mem_iff.2 ((sortByName_perm bs).mem_iff.1 right)
  exact List.inj_on_of_nodup_map distinct here there
    (le_antisymm (not_lt.1 below) (not_lt.1 above))

theorem get?_insertBy (a : String × α) (ms : List (String × α)) (key : String) :
    Members.get? (insertBy (fun a b => a.1 < b.1) a ms) key = Members.get? (a :: ms) key := by
  induction ms with
  | nil => rfl
  | cons b rest ih =>
    obtain ⟨name, value⟩ := a
    obtain ⟨other, kept⟩ := b
    by_cases less : other < name
    · by_cases here : name = key
      · subst here
        simp_all [insertBy, Members.get?, less.ne]
      · simp_all [insertBy, Members.get?]
    · simp [insertBy, less]

theorem get?_sortByName (ms : List (String × α)) (key : String) :
    Members.get? (sortByName ms) key = Members.get? ms key := by
  induction ms with
  | nil => rfl
  | cons m rest ih =>
    obtain ⟨name, value⟩ := m
    have step : Members.get? (sortByName ((name, value) :: rest)) key =
        Members.get? ((name, value) :: sortByName rest) key := get?_insertBy _ _ _
    rw [step, Members.get?, Members.get?, ih]

theorem get?_map (f : String × α → β) (ms : List (String × α)) (key : String) :
    Members.get? (ms.map fun m => (m.1, f m)) key =
      (Members.get? ms key).map fun v => f (key, v) := by
  induction ms with
  | nil => rfl
  | cons m rest ih =>
    obtain ⟨name, value⟩ := m
    by_cases here : name = key
    · simp [Members.get?, here]
    · simp [Members.get?, here, ih]

section Comparable

variable {α : Type} {less? : α → α → Option Bool} {items : List α}

def Comparable (less? : α → α → Option Bool) (items : List α) : Prop :=
  ∀ a ∈ items, ∀ b ∈ items, ∃ less, less? a b = some less

theorem Comparable.subset {others : List α} (comparable : Comparable less? items)
    (subset : others ⊆ items) : Comparable less? others :=
  fun a left b right => comparable a (subset left) b (subset right)

theorem exists_placeIn? {item : α} {sorted : List α} (low : Nat) {high : Nat}
    (inside : high ≤ sorted.length) (comparable : Comparable less? (item :: sorted)) :
    ∃ n, placeIn? less? item sorted low high = some n := by
  fun_induction placeIn? less? item sorted low high with
  | case1 low high open' middle below above =>
    have here : middle < sorted.length := by omega
    obtain ⟨less, compared⟩ := comparable item (by simp) sorted[middle] (by simp)
    simp only [List.getElem?_eq_getElem here, Option.bind_eq_bind, Option.bind_some, compared]
    split
    · exact below (by omega)
    · exact above inside
  | case2 low high closed => exact ⟨low, rfl⟩

theorem exists_insert? {item : α} {sorted : List α}
    (comparable : Comparable less? (item :: sorted)) :
    ∃ result, insert? less? sorted item = some result ∧ result ⊆ item :: sorted := by
  obtain ⟨n, place⟩ := exists_placeIn? 0 le_rfl comparable
  refine ⟨_, by rw [insert?, place]; rfl, fun a member => ?_⟩
  rcases List.mem_append.1 member with front | back
  · exact .tail _ (List.mem_of_mem_take front)
  · exact (List.mem_cons.1 back).elim (fun same => same ▸ .head _)
      fun later => .tail _ (List.mem_of_mem_drop later)

theorem exists_splitRun? (down : Bool) {last : α} (comparable : Comparable less? (last :: items)) :
    ∃ run others, splitRun? less? down last items = some (run, others) ∧
      run ⊆ items ∧ others ⊆ items := by
  induction items generalizing last with
  | nil => exact ⟨[], [], rfl, List.nil_subset _, List.nil_subset _⟩
  | cons item rest ih =>
    obtain ⟨less, compared⟩ := comparable item (by simp) last (by simp)
    obtain ⟨run, others, split, inRun, inOthers⟩ :=
      ih (comparable.subset (List.subset_cons_self _ _))
    simp only [splitRun?, compared, Option.bind_eq_bind, Option.bind_some]
    split
    · refine ⟨item :: run, others, by rw [split]; rfl, List.cons_subset_cons _ inRun, ?_⟩
      exact List.Subset.trans inOthers (List.subset_cons_self _ _)
    · exact ⟨[], item :: rest, rfl, List.nil_subset _, List.Subset.refl _⟩

theorem exists_foldlM_insert? {sorted : List α} (comparable : Comparable less? (sorted ++ items)) :
    ∃ result, items.foldlM (insert? less?) sorted = some result ∧ result ⊆ sorted ++ items := by
  induction items generalizing sorted with
  | nil => exact ⟨sorted, rfl, List.subset_append_left _ _⟩
  | cons item rest ih =>
    have together : item :: sorted ⊆ sorted ++ item :: rest :=
      List.cons_subset.2 ⟨by simp, List.subset_append_left _ _⟩
    have behind : rest ⊆ sorted ++ item :: rest :=
      List.subset_append_of_subset_right _ (List.subset_cons_self _ _)
    obtain ⟨next, placed, inside⟩ := exists_insert? (comparable.subset together)
    have step : next ++ rest ⊆ sorted ++ item :: rest :=
      List.append_subset.2 ⟨List.Subset.trans inside together, behind⟩
    obtain ⟨result, all, within⟩ := ih (comparable.subset step)
    exact ⟨result, by rw [List.foldlM_cons, placed]; exact all, List.Subset.trans within step⟩

theorem exists_sort? (comparable : Comparable less? items) :
    ∃ result, sort? less? items = some result ∧ result ⊆ items := by
  match items with
  | [] | [_] => exact ⟨_, rfl, List.Subset.refl _⟩
  | first :: second :: rest =>
    obtain ⟨down, compared⟩ := comparable second (by simp) first (by simp)
    obtain ⟨run, others, split, inRun, inOthers⟩ :=
      exists_splitRun? down (comparable.subset (List.subset_cons_self _ _))
    simp only [sort?, compared, Option.bind_eq_bind, Option.bind_some, split]
    have front : first :: second :: run ⊆ first :: second :: rest :=
      List.cons_subset_cons _ (List.cons_subset_cons _ inRun)
    have back : others ⊆ first :: second :: rest :=
      fun a member => .tail _ (.tail _ (inOthers member))
    have turned : (if down then (first :: second :: run).reverse else first :: second :: run) ⊆
        first :: second :: rest := by
      split
      · exact List.Subset.trans (List.reverse_subset.2 (List.Subset.refl _)) front
      · exact front
    have together := List.append_subset.2 ⟨turned, back⟩
    obtain ⟨result, all, within⟩ := exists_foldlM_insert? (comparable.subset together)
    exact ⟨result, all, List.Subset.trans within together⟩

end Comparable

theorem Value.exists_sorted?_obj (members : Fields) :
    ∃ names, (Value.obj members).sorted? = some names ∧
      ∀ v ∈ names, ∃ name, v = .str name := by
  have comparable : Comparable less? (members.map fun m => Value.str m.1) := by
    intro a left b right
    obtain ⟨m, -, rfl⟩ := List.mem_map.1 left
    obtain ⟨n, -, rfl⟩ := List.mem_map.1 right
    exact ⟨_, rfl⟩
  obtain ⟨names, sorted, within⟩ := exists_sort? comparable
  refine ⟨names, sorted, fun v member => ?_⟩
  obtain ⟨m, -, rfl⟩ := List.mem_map.1 (within member)
  exact ⟨m.1, rfl⟩

end Harvest
