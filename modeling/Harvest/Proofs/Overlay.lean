import Harvest.Config.Overlay
import Harvest.Members

namespace Harvest

namespace Members

variable {α : Type} {ms : List (String × α)}

@[simp] theorem putAll_nil (ms : List (String × α)) : putAll ms [] = ms := rfl

@[simp] theorem putAll_cons (ms : List (String × α)) (m : String × α) (upper : List (String × α)) :
    putAll ms (m :: upper) = putAll (put ms m.1 m.2) upper := rfl

theorem mem_put {key : String} {value : α} {m : String × α} (member : m ∈ put ms key value) :
    m = (key, value) ∨ m ∈ ms := by
  induction ms with
  | nil => exact .inl (List.mem_singleton.1 member)
  | cons first rest ih =>
    obtain ⟨k, v⟩ := first
    by_cases same : k = key
    · simp only [put, same, if_true, List.mem_cons] at member
      exact member.imp_right (List.mem_cons_of_mem _)
    · simp only [put, same, if_false, List.mem_cons] at member
      rcases member with rfl | later
      · exact .inr List.mem_cons_self
      · exact (ih later).imp_right (List.mem_cons_of_mem _)

theorem get?_putAll {upper : List (String × α)} (distinct : (keys upper).Nodup) (key : String) :
    get? (putAll ms upper) key = (get? upper key).or (get? ms key) := by
  induction upper generalizing ms with
  | nil => rfl
  | cons m rest ih =>
    obtain ⟨name, v⟩ := m
    obtain ⟨fresh, distinct⟩ := List.nodup_cons.1 distinct
    rw [putAll_cons, ih distinct]
    by_cases same : name = key
    · subst same
      have later : get? rest name = none := get?_eq_none_iff.2 fresh
      simp [get?, later]
    · rw [get?_put_of_ne ms v (Ne.symm same), get?, if_neg same]

end Members

namespace Config

variable {P : String → Value → Prop}

theorem overlayMember_all (objects : ∀ name a b, P name (.obj a) → P name (.obj b))
    {lower : Fields} (below : ∀ m ∈ lower, P m.1 m.2) {name : String} {v : Value}
    (here : P name v) :
    ∀ m ∈ overlayMember lower name v, P m.1 m.2 := by
  have written : ∀ w, P name w → ∀ m ∈ Members.put lower name w, P m.1 m.2 := by
    intro w fits m member
    rcases Members.mem_put member with rfl | before
    · exact fits
    · exact below m before
  cases v with
  | null => exact below
  | obj members => exact written _ (objects _ _ _ here)
  | _ => exact written _ here

theorem overlay_all (objects : ∀ name a b, P name (.obj a) → P name (.obj b))
    {lower upper : Fields} (below : ∀ m ∈ lower, P m.1 m.2) (above : ∀ m ∈ upper, P m.1 m.2) :
    ∀ m ∈ overlay lower upper, P m.1 m.2 := by
  induction upper generalizing lower with
  | nil => exact below
  | cons first rest ih =>
    obtain ⟨here, later⟩ := List.forall_mem_cons.1 above
    exact ih (overlayMember_all objects below here) later

theorem flatten_all (objects : ∀ name a b, P name (.obj a) → P name (.obj b))
    {layers : List Fields} (all : ∀ layer ∈ layers, ∀ m ∈ layer, P m.1 m.2) :
    ∀ m ∈ flatten layers, P m.1 m.2 := by
  have from_lower : ∀ lower : Fields, (∀ m ∈ lower, P m.1 m.2) →
      ∀ m ∈ layers.foldl overlay lower, P m.1 m.2 := by
    induction layers with
    | nil => exact fun _ below => below
    | cons layer rest ih =>
      intro lower below
      obtain ⟨here, later⟩ := List.forall_mem_cons.1 all
      exact ih later _ (overlay_all objects below here)
  exact from_lower [] (by simp)

variable {lower other upper : Fields} {name key : String}

theorem get?_overlayMember_of_ne (v : Value) (apart : key ≠ name) :
    Members.get? (overlayMember lower name v) key = Members.get? lower key := by
  cases v with
  | null => rfl
  | _ => exact Members.get?_put_of_ne lower _ apart

theorem get?_overlayMember_congr (same : Members.get? lower name = Members.get? other name)
    (v : Value) : Members.get? (overlayMember lower name v) name =
      Members.get? (overlayMember other name v) name := by
  cases v with
  | null => exact same
  | obj members => simp only [overlayMember, Members.get?_put_self, membersUnder, same]
  | _ => simp only [overlayMember, Members.get?_put_self]

theorem get?_overlay (distinct : (Members.keys upper).Nodup) :
    Members.get? (overlay lower upper) name =
      match Members.get? upper name with
      | none => Members.get? lower name
      | some v => Members.get? (overlayMember lower name v) name := by
  induction upper generalizing lower with
  | nil => rfl
  | cons m rest ih =>
    obtain ⟨k, v⟩ := m
    obtain ⟨fresh, distinct⟩ := List.nodup_cons.1 distinct
    rw [overlay, ih distinct]
    by_cases here : k = name
    · subst here
      rw [Members.get?_eq_none_iff.2 fresh]
      simp [Members.get?]
    · have unchanged : Members.get? (overlayMember lower k v) name = Members.get? lower name :=
        get?_overlayMember_of_ne v (Ne.symm here)
      rw [Members.get?, if_neg here]
      cases Members.get? rest name with
      | none => exact unchanged
      | some w => exact get?_overlayMember_congr unchanged w

theorem mem_keys_overlay (inside : name ∈ Members.keys lower) :
    name ∈ Members.keys (overlay lower upper) := by
  induction upper generalizing lower with
  | nil => exact inside
  | cons m rest ih =>
    obtain ⟨k, v⟩ := m
    refine ih ?_
    have written : ∀ w, name ∈ Members.keys (Members.put lower k w) := by
      intro w
      rw [Members.keys_put]
      split <;> simp [inside]
    cases v with
    | null => exact inside
    | _ => exact written _

end Config

end Harvest
