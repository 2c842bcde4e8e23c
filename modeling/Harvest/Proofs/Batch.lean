import Mathlib.Data.List.Forall2
import Harvest.Batch

namespace Harvest

namespace Batch

variable {σ α : Type} {client : String} {tasks : List (Run σ α)} {results : List α}

theorem endings_runAll (each : List.Forall₂ (fun r a => ∀ w, (r w).ending = .done a) tasks results)
    (w : σ) : (runAll tasks w).endings = results.map .done := by
  induction each generalizing w with
  | nil => rfl
  | cons first _ ih => simp [runAll, first w, ih]

theorem firstFailure?_done (results : List α) : firstFailure? (results.map .done) = none := by
  induction results with
  | nil => rfl
  | cons a rest ih => simpa [firstFailure?] using ih

theorem results?_done (results : List α) : results? (results.map .done) = some results := by
  induction results with
  | nil => rfl
  | cons a rest ih => simp [results?, ih]

theorem run_done (each : List.Forall₂ (fun r a => ∀ w, (r w).ending = .done a) tasks results)
    (w : σ) : (run client tasks w).ending = .done results := by
  simp [run, join, endings_runAll each w, firstFailure?_done, results?_done]

theorem firstFailure?_of_mem {endings : List (Ending α)} {f : Failure}
    (member : .failed f ∈ endings) : ∃ f', firstFailure? endings = some f' := by
  induction endings with
  | nil => cases member
  | cons e rest ih =>
    cases e with
    | failed f' => exact ⟨f', rfl⟩
    | _ => exact ih (by simpa using member)

theorem mem_of_firstFailure? {endings : List (Ending α)} {f : Failure}
    (first : firstFailure? endings = some f) : .failed f ∈ endings := by
  induction endings with
  | nil => cases first
  | cons e rest ih =>
    cases e with
    | failed f' =>
      cases first
      exact List.mem_cons_self
    | _ => exact List.mem_cons_of_mem _ (ih first)

theorem failed_mem_runAll {task : Run σ α} {f : Failure} (member : task ∈ tasks)
    (failed : ∀ w, (task w).ending = .failed f) (w : σ) : .failed f ∈ (runAll tasks w).endings := by
  induction tasks generalizing w with
  | nil => cases member
  | cons first rest ih =>
    rcases List.mem_cons.1 member with rfl | later
    · simp [runAll, failed w]
    · exact List.mem_cons_of_mem _ (ih later _)

theorem run_failed {task : Run σ α} {f : Failure} (member : task ∈ tasks)
    (failed : ∀ w, (task w).ending = .failed f) (w : σ) :
    ∃ f', (run client tasks w).ending = .failed f' := by
  obtain ⟨f', first⟩ := firstFailure?_of_mem (failed_mem_runAll member failed w)
  exact ⟨f', by simp [run, join, first]⟩

theorem firstFailure?_of_join {endings : List (Ending α)} {f : Failure}
    (h : join endings = .failed f) :
    firstFailure? endings = some f := by
  unfold join at h
  split at h
  next f' first =>
    cases h
    exact first
  · split at h
    · cases h
    · split at h <;> cases h

theorem endings_of_join {endings : List (Ending α)} (h : join endings = .done results) :
    endings = results.map .done := by
  have all : results? endings = some results := by
    unfold join at h
    split at h
    · cases h
    · split at h
      next found =>
        cases h
        exact found
      · split at h <;> cases h
  clear h
  induction endings generalizing results with
  | nil =>
    cases all
    rfl
  | cons e rest ih =>
    cases e with
    | done a =>
      obtain ⟨others, found, rfl⟩ := Option.map_eq_some_iff.1 all
      simp [ih found]
    | _ => cases all

theorem task_of_mem_endings {w : σ} {e : Ending α} (member : e ∈ (runAll tasks w).endings) :
    ∃ task ∈ tasks, ∃ w', (task w').ending = e := by
  induction tasks generalizing w with
  | nil => cases member
  | cons task rest ih =>
    rcases List.mem_cons.1 member with rfl | later
    · exact ⟨task, List.mem_cons_self, w, rfl⟩
    · obtain ⟨other, inside, ending⟩ := ih later
      exact ⟨other, List.mem_cons_of_mem task inside, ending⟩

end Batch

end Harvest
