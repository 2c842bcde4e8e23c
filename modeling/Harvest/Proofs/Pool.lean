import Mathlib
import Harvest.Pool
import Harvest.Proofs.Distinct
import Harvest.Proofs.Outcomes

namespace Harvest.Pool

variable {α : Type} {pool : Value} {roots : List String} {cands : String → List Value}
  {context : Fields}

def assigned (roots : List String) (f : String → α) : List (String × α) :=
  roots.map fun root => (root, f root)

theorem get?_assigned (roots : List String) (f : String → α) (root : String) :
    Members.get? (assigned roots f) root = if root ∈ roots then some (f root) else none := by
  induction roots with
  | nil => rfl
  | cons r rest ih =>
    by_cases here : r = root
    · simp [assigned, Members.get?, here]
    · have other : root ≠ r := fun same => here same.symm
      simpa [assigned, Members.get?, here, other] using ih

theorem assigned_congr {f g : String → α} (same : ∀ root ∈ roots, f root = g root) :
    assigned roots f = assigned roots g := by
  apply List.map_congr_left
  intro root member
  rw [same root member]

theorem assigned_mem_product {pick : String → Value}
    (among : ∀ root ∈ roots, pick root ∈ cands root) :
    assigned roots pick ∈ product (assigned roots cands) := by
  induction roots with
  | nil => simp [assigned, product]
  | cons r rest ih =>
    have others := ih fun root member => among root (.tail r member)
    simp only [assigned, List.map_cons, product, List.mem_flatMap, List.mem_map]
    exact ⟨pick r, among r (by simp), _, others, rfl⟩

theorem mem_product_iff (distinct : roots.Nodup) :
    context ∈ product (assigned roots cands) ↔
      ∃ pick, (∀ root ∈ roots, pick root ∈ cands root) ∧ context = assigned roots pick := by
  constructor
  · intro member
    induction roots generalizing context with
    | nil => exact ⟨fun _ => .null, by simp, by simpa [assigned, product] using member⟩
    | cons r rest ih =>
      obtain ⟨fresh, distinct⟩ := List.nodup_cons.1 distinct
      simp only [assigned, List.map_cons, product, List.mem_flatMap, List.mem_map] at member
      obtain ⟨v, offered, others, chosen, rfl⟩ := member
      obtain ⟨pick, among, rfl⟩ := ih distinct chosen
      have kept : ∀ root ∈ rest, Function.update pick r v root = pick root := by
        intro root member
        apply Function.update_of_ne
        rintro rfl
        exact fresh member
      refine ⟨Function.update pick r v, ?_, ?_⟩
      · intro root member
        rcases List.mem_cons.1 member with rfl | later
        · simpa using offered
        · rw [kept root later]
          exact among root later
      · rw [← assigned_congr kept]
        simp [assigned]
  · rintro ⟨pick, among, rfl⟩
    exact assigned_mem_product among

theorem choices_of_offers
    (offers : ∀ root ∈ roots, candidates pool (.named root) = .ok (cands root))
    (some_each : ∀ root ∈ roots, cands root ≠ []) :
    (choices pool (roots.map .named)).result = .ok (some (assigned roots cands)) := by
  induction roots with
  | nil => rfl
  | cons r rest ih =>
    have others := ih (fun root member => offers root (.tail r member))
      fun root member => some_each root (.tail r member)
    have some_here : (cands r).isEmpty = false := by simpa using some_each r (by simp)
    simp only [List.map_cons, choices, Noted.bind_eq_ok, Noted.result_lift]
    refine ⟨cands r, offers r (by simp), ?_⟩
    rw [some_here]
    simp only [Bool.false_eq_true, if_false, Noted.bind_eq_ok]
    exact ⟨_, others, rfl⟩

theorem contexts_of_offers
    (offers : ∀ root ∈ roots, candidates pool (.named root) = .ok (cands root))
    (some_each : ∀ root ∈ roots, cands root ≠ []) :
    (contexts pool (roots.map .named)).result = .ok (product (assigned roots.eraseDups cands)) := by
  have injective : Function.Injective Root.named := fun _ _ same => Root.named.inj same
  have chosen : (choices pool (roots.eraseDups.map .named)).result =
      .ok (some (assigned roots.eraseDups cands)) :=
    choices_of_offers (fun root member => offers root (List.mem_eraseDups.1 member))
      fun root member => some_each root (List.mem_eraseDups.1 member)
  unfold contexts
  rw [Distinct.eraseDups_map injective, Noted.bind_eq_ok]
  exact ⟨_, chosen, rfl⟩

end Harvest.Pool
