import Harvest.Fetch
import Harvest.Proofs.Run

namespace Harvest

namespace Value

theorem iterated_readsData (v : Value) : ReadsData v.iterated := by
  intro f h
  unfold iterated at h
  split at h <;> cases h
  rfl

theorem pair_readsData (v : Value) : ReadsData v.pair := by
  refine (iterated_readsData v).bind fun parts => ?_
  intro f h
  split at h
  · split at h <;> cases h
    rfl
  · cases h
    rfl

theorem pairs_readsData (v : Value) : ReadsData v.pairs := by
  unfold pairs
  split
  · exact .ok _
  · refine (iterated_readsData v).bind fun items => ?_
    exact (ReadsData.mapM pair_readsData items).bind fun _ => .ok _

end Value

theorem Candidate.make_readsData (value typeName context : Value) :
    ReadsData (Candidate.make value typeName context) := by
  intro f h
  unfold Candidate.make Failure.ofChecked at h
  split at h <;> cases h
  rfl

theorem Transformation.select_readsData (t : Transformation) (data : Value) :
    ReadsData (t.select data) := by
  unfold Transformation.select
  extract_lets finish
  have finished : ∀ found, ReadsData (finish found) := by
    intro found
    dsimp only [finish]
    split <;> exact .ok _
  split
  · exact (ReadsData.ok data).bind finished
  · split
    · exact (ReadsData.ok data).bind finished
    · split
      · exact (ReadsData.ok _).bind finished
      · rintro f ⟨⟩
        rfl

theorem Fetch.under_readsData (context : Value) (c : Candidate) :
    ReadsData (Fetch.under context c) :=
  (Value.pairs_readsData context).bind fun _ => .ok _

section

variable {σ : Type} {holds : ∀ {α : Type}, Run σ α → Prop} {adjust : Adjuster σ}
  (composes : Run.Composes holds)

include composes

namespace Extraction

section

variable {t : Transformation}
  (hooks : ∀ hook, t.adjust = some hook → ∀ typeName c, holds (adjusted adjust hook typeName c))

include hooks

theorem candidateOf_composed (typeName context v : Value) :
    holds (candidateOf adjust t typeName context v) := by
  refine composes.bind (composes.ofExcept (Candidate.make_readsData _ _ _)) fun c => ?_
  cases given : t.adjust with
  | none => exact composes.done _
  | some hook => exact hooks hook given typeName c

theorem candidatesOf_composed (typeName context : Value) (values : List Value) :
    holds (candidatesOf adjust t typeName context values) := by
  induction values with
  | nil => exact composes.done _
  | cons v rest ih =>
    refine composes.bind (candidateOf_composed composes hooks typeName context v) fun first => ?_
    exact composes.bind ih fun others => composes.done _

end

theorem validate_composed (origin : Origin) (candidates : List Candidate) :
    holds (validate origin candidates) := by
  induction candidates with
  | nil => exact composes.done _
  | cons c rest ih =>
    unfold validate
    split
    · exact composes.bind ih fun items => composes.done _
    · exact composes.bind (composes.emit _) fun _ => ih

variable {request : Request} (hooks : ∀ hook, request.transformation.value.adjust = some hook →
  ∀ typeName c, holds (adjusted adjust hook typeName c))

include hooks

theorem ofPage_composed (typeName : Value) (page : Page) :
    holds (ofPage adjust request typeName page) := by
  refine composes.bind (composes.ofExcept (Candidate.make_readsData _ _ _)) fun whole => ?_
  refine composes.bind (composes.ofExcept (Transformation.select_readsData _ _)) fun values => ?_
  exact candidatesOf_composed composes hooks _ _ values

theorem itemsOf_composed (origin : Origin) {mark : Candidate → Except Failure Candidate}
    (marks : ∀ c, ReadsData (mark c)) (pages : List Page) :
    holds (itemsOf adjust request origin mark pages) := by
  induction pages with
  | nil => exact composes.done _
  | cons page rest ih =>
    refine composes.bind (ofPage_composed composes hooks _ page) fun candidates => ?_
    refine composes.bind (composes.ofExcept (ReadsData.mapM marks candidates)) fun marked => ?_
    refine composes.bind (validate_composed composes origin marked) fun first => ?_
    exact composes.bind ih fun others => composes.done _

end Extraction

namespace Fetch

variable {p : Plan} (hooks : ∀ hook, p.request.transformation.value.adjust = some hook →
  ∀ typeName c, holds (Extraction.adjusted adjust hook typeName c))

include hooks

theorem extract_composed (typeName : Value) (fetched : List Traversal.Fetched) :
    holds (extract adjust p typeName fetched) := by
  induction fetched with
  | nil => exact composes.done _
  | cons first rest ih =>
    refine composes.bind ?_ fun items => composes.bind ih fun others => composes.done _
    exact Extraction.itemsOf_composed composes hooks _ (under_readsData _) _

theorem finish_composed (typeName : Value) (fetched : List Traversal.Fetched) :
    holds (finish adjust p typeName fetched) := by
  refine composes.bind (extract_composed composes hooks typeName fetched) fun items => ?_
  exact composes.bind (composes.emit _) fun _ => composes.done _

end Fetch

end

namespace Extraction

variable {σ : Type} {adjust : Adjuster σ}

theorem adjusted_within {may : Failure → Prop}
    (failures : ∀ hook c w f, (adjust hook c w).1 = .error f → may f) (hook : Hook)
    (typeName : Value) (c : Candidate) : (adjusted adjust hook typeName c).Within may := by
  refine ⟨?_, ?_⟩
  · intro w e member
    unfold adjusted at member
    split at member <;> simp_all
  · intro w
    unfold adjusted
    split
    next f w' h => exact .inr ⟨f, rfl, failures hook c w f (by rw [h])⟩
    all_goals exact .inl ⟨_, rfl⟩

/-- The request has no hook, or one without a state of its own. -/
def Stateless (adjust : Adjuster σ) (request : Request) : Prop :=
  ∀ hook, request.transformation.value.adjust = some hook →
    ∃ decide : Candidate → Except Failure Adjusted, ∀ c w, adjust hook c w = (decide c, w)

theorem adjusted_steady {decide : Candidate → Except Failure Adjusted} {hook : Hook}
    (same : ∀ c w, adjust hook c w = (decide c, w)) (typeName : Value) (c : Candidate) :
    (adjusted adjust hook typeName c).Steady := by
  unfold adjusted
  simp only [same]
  cases decide c with
  | error f => exact ⟨.error f, fun w => rfl⟩
  | ok a => cases a <;> exact ⟨.ok _, fun w => rfl⟩

end Extraction

namespace Fetch

variable {σ : Type} {adjust : Adjuster σ}

theorem finish_within {may : Failure → Prop} (data : ∀ f, f.isDefinition = false → may f)
    (failures : ∀ hook c w f, (adjust hook c w).1 = .error f → may f) (p : Plan)
    (typeName : Value) (fetched : List Traversal.Fetched) :
    (finish adjust p typeName fetched).Within may :=
  finish_composed (Run.Within.composes data)
    (fun hook _ => Extraction.adjusted_within failures hook) typeName fetched

theorem finish_steady {p : Plan} (stateless : Extraction.Stateless adjust p.request)
    (typeName : Value) (fetched : List Traversal.Fetched) :
    (finish adjust p typeName fetched).Steady := by
  refine finish_composed Run.Steady.composes (fun hook given => ?_) typeName fetched
  obtain ⟨decide, same⟩ := stateless hook given
  exact Extraction.adjusted_steady same

end Fetch

end Harvest
