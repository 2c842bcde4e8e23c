import Harvest.Traversal
import Harvest.Proofs.Outcomes
import Harvest.Proofs.Sorting
import Harvest.Proofs.Wording

namespace Harvest

namespace Template

variable {context : Value} {names : List Value}

/-- What a context binds can be reported: it has an order, and all of it can be written. -/
def Reports (context : Value) (names : List Value) : Prop :=
  context.sorted? = some names ∧ (Value.arr names).isWritable = true

theorem bound_eq_ok : bound context = .ok names ↔ Reports context names := by
  unfold bound Reports
  cases context.sorted? with
  | none => simp
  | some sorted =>
    simp only [Option.some.injEq]
    split
    next written =>
      simp only [Except.ok.injEq]
      exact ⟨fun same => ⟨same, same ▸ written⟩, And.left⟩
    next unwritten =>
      refine ⟨nofun, fun ⟨same, written⟩ => absurd (same ▸ written) unwritten⟩

theorem bound_of_unsorted (unsorted : context.sorted? = none) : bound context = .error .misfit := by
  rw [bound, unsorted]

theorem bound_of_unwritten (sorted : context.sorted? = some names)
    (unwritten : (Value.arr names).isWritable = false) : bound context = .error .unreadable := by
  rw [bound, sorted]
  exact if_neg (by simp [unwritten])

theorem bound_ne_definition {d : DefinitionFault} : bound context ≠ .error (.definition d) := by
  unfold bound
  cases context.sorted? with
  | none => simp
  | some sorted => dsimp only; split <;> simp

theorem exists_reports_obj (members : Fields) : ∃ names, Reports (.obj members) names := by
  obtain ⟨names, sorted, texts⟩ := Value.exists_sorted?_obj members
  refine ⟨names, sorted, ?_⟩
  clear sorted
  induction names with
  | nil => rfl
  | cons v rest ih =>
    obtain ⟨⟨name, rfl⟩, others⟩ := List.forall_mem_cons.1 texts
    exact ih others

namespace Filled

variable {α : Type} {filled : Filled α} {v : α}

theorem complete_of_missing (some_missing : filled.missing ≠ []) :
    filled.complete context = bound context >>= fun names =>
      .error (.definition (.unresolved filled.missing.eraseDups names)) :=
  if_neg (mt List.isEmpty_iff.1 some_missing)

theorem complete_eq_ok :
    filled.complete context = .ok v ↔ filled.missing = [] ∧ filled.value = v := by
  by_cases none_missing : filled.missing = []
  · simp [complete, none_missing]
  · rw [complete_of_missing none_missing]
    cases bound context <;> simp [none_missing]

end Filled

end Template

open Template

namespace Call

variable {call c : Call} {context : Value}

theorem substitute_eq_ok (h : call.substitute context = .ok c) :
    c.method = call.method ∧
      ∃ v, fillString context call.path = .ok ⟨v, []⟩ ∧ c.path = v.text := by
  unfold substitute at h
  obtain ⟨whole, all, h⟩ := bind_eq_ok.1 h
  obtain ⟨parts, completed, h⟩ := bind_eq_ok.1 h
  obtain ⟨text, written, h⟩ := bind_eq_ok.1 h
  cases h
  obtain ⟨complete, rfl⟩ := Filled.complete_eq_ok.1 completed
  unfold filled at all
  obtain ⟨path, pathFilled, all⟩ := bind_eq_ok.1 all
  obtain ⟨queryArgs, -, all⟩ := bind_eq_ok.1 all
  obtain ⟨headers, -, all⟩ := bind_eq_ok.1 all
  obtain ⟨body, -, all⟩ := bind_eq_ok.1 all
  cases all
  simp only [List.append_eq_nil_iff] at complete
  obtain ⟨⟨⟨noneInPath, -⟩, -⟩, -⟩ := complete
  refine ⟨rfl, path.value, ?_, Value.text_of_asText written⟩
  rw [pathFilled, ← noneInPath]

end Call

namespace Traversal

variable {call : Call} {contexts : List Value} {firsts : List (Value × Call)} {f : Failure}

theorem firstCalls_eq_error : firstCalls call contexts = .error f ↔
    ∃ front context behind, contexts = front ++ context :: behind ∧
      (∀ before ∈ front, ∃ c, call.substitute before = .ok c) ∧
      call.substitute context = .error f := by
  have passes : ∀ context, (∃ first, (call.substitute context).map (context, ·) = .ok first) ↔
      ∃ c, call.substitute context = .ok c := by
    intro context
    cases call.substitute context <;> simp [Except.map]
  have fails : ∀ context, (call.substitute context).map (context, ·) = .error f ↔
      call.substitute context = .error f := by
    intro context
    cases call.substitute context <;> simp [Except.map]
  simp only [firstCalls, mapM_eq_error_iff, passes, fails]

theorem firstCalls_eq_ok :
    firstCalls call contexts = .ok firsts ↔
      List.Forall₂ (fun context first => first.1 = context ∧ call.substitute context = .ok first.2)
        contexts firsts := by
  unfold firstCalls
  rw [mapM_eq_ok]
  have same : ∀ context (first : Value × Call),
      (call.substitute context).map (context, ·) = .ok first ↔
        first.1 = context ∧ call.substitute context = .ok first.2 := by
    rintro context ⟨name, c⟩
    rw [map_eq_ok]
    constructor
    · rintro ⟨filled, substituted, pair⟩
      cases pair
      exact ⟨rfl, substituted⟩
    · rintro ⟨rfl, substituted⟩
      exact ⟨c, substituted, rfl⟩
  simp only [same]

end Traversal

end Harvest
