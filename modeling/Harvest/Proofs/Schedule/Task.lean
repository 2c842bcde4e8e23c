import Harvest.Run

namespace Harvest.Schedule

/-- Why a task ended without a result. -/
inductive Cause where
  | failure (f : Failure)
  | cancellation

inductive TaskEnd (α : Type) where
  | returned (a : α)
  | raised (c : Cause)

/-- A task goes from state to state until it ends. At any time it may be told to give up, which it
notices when it runs next. -/
structure Task (κ α : Type) where
  state : κ
  told : Bool
  ended : Option (TaskEnd α)

namespace Task

variable {κ α : Type}

def fresh (state : κ) : Task κ α :=
  ⟨state, false, none⟩

def tell (t : Task κ α) : Task κ α :=
  { t with told := true }

def failure? (t : Task κ α) : Option Failure :=
  match t.ended with
  | some (.raised (.failure f)) => some f
  | _ => none

def result? (t : Task κ α) : Option α :=
  match t.ended with
  | some (.returned a) => some a
  | _ => none

@[simp] theorem tell_state (t : Task κ α) : t.tell.state = t.state := rfl

@[simp] theorem tell_told (t : Task κ α) : t.tell.told = true := rfl

@[simp] theorem tell_ended (t : Task κ α) : t.tell.ended = t.ended := rfl

@[simp] theorem failure?_tell (t : Task κ α) : t.tell.failure? = t.failure? := rfl

@[simp] theorem result?_tell (t : Task κ α) : t.tell.result? = t.result? := rfl

theorem failure?_eq_some {t : Task κ α} {f : Failure} :
    t.failure? = some f ↔ t.ended = some (.raised (.failure f)) := by
  unfold failure?
  split <;> simp_all

theorem result?_eq_some {t : Task κ α} {a : α} :
    t.result? = some a ↔ t.ended = some (.returned a) := by
  unfold result?
  split <;> simp_all

theorem failure?_of_running {t : Task κ α} (running : t.ended = none) : t.failure? = none := by
  simp [failure?, running]

end Task

/-- Steps one after the other, with what each of them shows. -/
inductive Steps {S L : Type} (step : S → L → S → Prop) (s : S) : List L → S → Prop where
  | nil : Steps step s [] s
  | snoc {labels s' l s''} : Steps step s labels s' → step s' l s'' →
      Steps step s (labels ++ [l]) s''

namespace Steps

variable {S L : Type} {step : S → L → S → Prop} {s s' s'' : S}

theorem single {l : L} (h : step s l s') : Steps step s [l] s' :=
  .snoc .nil h

theorem trans {first second : List L} (h : Steps step s first s')
    (rest : Steps step s' second s'') : Steps step s (first ++ second) s'' := by
  induction rest with
  | nil => simpa using h
  | snoc _ last ih => rw [← List.append_assoc]; exact .snoc ih last

theorem cons {l : L} {labels : List L} (h : step s l s') (rest : Steps step s' labels s'') :
    Steps step s (l :: labels) s'' :=
  (single h).trans rest

theorem exists_cons {l : L} {holds : S → Prop} (h : step s l s')
    (rest : ∃ labels t, Steps step s' labels t ∧ holds t) :
    ∃ labels t, Steps step s labels t ∧ holds t := by
  obtain ⟨labels, t, run, reached⟩ := rest
  exact ⟨l :: labels, t, cons h run, reached⟩

/-- What holds at the start and is kept by each step holds after every run. -/
theorem invariant {holds : List L → S → Prop} {labels : List L} (run : Steps step s labels s')
    (start : holds [] s)
    (next : ∀ labels s' l s'', holds labels s' → step s' l s'' → holds (labels ++ [l]) s'') :
    holds labels s' := by
  induction run with
  | nil => exact start
  | snoc _ last ih => exact next _ _ _ _ ih last

end Steps

/-- A task among others: it takes a step, or it is told to give up. -/
inductive Exposed {κ α L : Type} (step : Task κ α → L → Task κ α → Prop) :
    Task κ α → Option L → Task κ α → Prop where
  | step {t l t'} : step t l t' → Exposed step t (some l) t'
  | tell (t) : Exposed step t none t.tell

theorem Steps.exposed {κ α L : Type} {step : Task κ α → L → Task κ α → Prop} {t t' : Task κ α}
    {labels : List L} (run : Steps step t labels t') :
    Steps (Exposed step) t (labels.map some) t' := by
  induction run with
  | nil => exact .nil
  | snoc _ last ih =>
    rw [List.map_append]
    exact ih.snoc (.step last)

end Harvest.Schedule
