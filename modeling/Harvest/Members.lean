namespace Harvest.Members

variable {α β : Type}

def get? : List (String × α) → String → Option α
  | [], _ => none
  | (k, v) :: rest, key => if k = key then some v else get? rest key

def has (ms : List (String × α)) (key : String) : Bool :=
  (get? ms key).isSome

def put : List (String × α) → String → α → List (String × α)
  | [], key, value => [(key, value)]
  | (k, v) :: rest, key, value =>
    if k = key then (key, value) :: rest else (k, v) :: put rest key value

def putAll (ms upper : List (String × α)) : List (String × α) :=
  upper.foldl (fun acc m => put acc m.1 m.2) ms

def keys (ms : List (String × α)) : List String :=
  ms.map (·.1)

@[simp] theorem get?_put_self (ms : List (String × α)) (key : String) (value : α) :
    get? (put ms key value) key = some value := by
  induction ms with
  | nil => simp [put, get?]
  | cons m rest ih =>
    obtain ⟨k, v⟩ := m
    by_cases h : k = key
    · simp [put, get?, h]
    · simp [put, get?, h, ih]

theorem get?_put_of_ne (ms : List (String × α)) {key other : String} (value : α)
    (h : other ≠ key) : get? (put ms key value) other = get? ms other := by
  induction ms with
  | nil => simp [put, get?, Ne.symm h]
  | cons m rest ih =>
    obtain ⟨k, v⟩ := m
    by_cases hk : k = key
    · subst hk
      simp [put, get?, Ne.symm h]
    · simp only [put, hk, if_false, get?, ih]

theorem has_iff {ms : List (String × α)} {key : String} : has ms key = true ↔ key ∈ keys ms := by
  induction ms with
  | nil => simp [has, get?, keys]
  | cons m rest ih =>
    obtain ⟨k, v⟩ := m
    by_cases h : k = key
    · simp [has, get?, keys, h]
    · have other : key ≠ k := fun same => h same.symm
      simpa [has, get?, keys, h, other] using ih

theorem get?_eq_none_iff {ms : List (String × α)} {key : String} :
    get? ms key = none ↔ key ∉ keys ms := by
  rw [← has_iff, has]
  simp

theorem mem_of_get? {ms : List (String × α)} {key : String} {value : α}
    (found : get? ms key = some value) : (key, value) ∈ ms := by
  induction ms with
  | nil => simp [get?] at found
  | cons m rest ih =>
    obtain ⟨name, v⟩ := m
    by_cases here : name = key
    · simp_all [get?]
    · rw [get?, if_neg here] at found
      exact List.mem_cons_of_mem _ (ih found)

theorem get?_eq_some_iff {ms : List (String × α)} (distinct : (keys ms).Nodup) {key : String}
    {value : α} : get? ms key = some value ↔ (key, value) ∈ ms := by
  refine ⟨mem_of_get?, fun member => ?_⟩
  induction ms with
  | nil => cases member
  | cons m rest ih =>
    obtain ⟨name, v⟩ := m
    obtain ⟨fresh, distinct⟩ := List.nodup_cons.1 distinct
    rcases List.mem_cons.1 member with same | later
    · simp_all [get?]
    · have other : name ≠ key := by
        rintro rfl
        exact fresh (List.mem_map.2 ⟨_, later, rfl⟩)
      rw [get?, if_neg other]
      exact ih distinct later

theorem keys_put (ms : List (String × α)) (key : String) (value : α) :
    keys (put ms key value) = if has ms key then keys ms else keys ms ++ [key] := by
  induction ms with
  | nil => simp [put, keys, has, get?]
  | cons m rest ih =>
    obtain ⟨k, v⟩ := m
    by_cases hk : k = key
    · subst hk
      simp [put, keys, has, get?]
    · simp only [put, hk, if_false, keys, List.map_cons, has, get?] at ih ⊢
      rw [ih]
      split <;> simp_all

end Harvest.Members
