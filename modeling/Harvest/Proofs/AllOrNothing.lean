import Mathlib
import Harvest.Proofs.Schedule.Job

namespace Harvest.Schedule

variable {σ κ α β L : Type}

/-- What the owner of a batch may raise when it has given the batch up. -/
def RaisedOwn (labels : List (Option (OwnerLabel L))) (tasks : List (Task κ α)) : Cause → Prop
  | .failure f => (failures labels).head? = some f ∧ ∃ t ∈ tasks, t.ended = some (.raised (.failure f))
  | .cancellation => GivenUpAsTold labels

theorem Owner.Inv.raisedOwn {child : Task κ α → L → Task κ α → Prop}
    {close : List α → List Event → TaskEnd β → Prop} {tasks : List (Task κ α)}
    {labels : List (Option (OwnerLabel L))} {o : Owner κ α β}
    (inv : Owner.Inv child close tasks labels o) {c : Cause} (gaveUp : o.state.cause.isSome)
    (ended : o.ended = some (.raised c)) : RaisedOwn labels o.state.tasks c := by
  obtain ⟨given, gaveUp⟩ := Option.isSome_iff_exists.1 gaveUp
  have own := inv.raised_own gaveUp ended
  cases c with
  | failure f =>
    have head := own.1 f rfl
    obtain ⟨t, inside, failed⟩ := inv.failed f (List.mem_of_head? head)
    exact ⟨head, t, inside, Task.failure?_eq_some.1 failed⟩
  | cancellation => exact own.2 rfl

theorem quiet_of_ended {step : Task κ α → L → Task κ α → Prop}
    (live : ∀ {t l t'}, step t l t' → t.ended = none) {t t' : Task κ α}
    {labels : List (Option L)} (ended : t.ended.isSome)
    (later : Steps (Exposed step) t labels t') : (∀ l ∈ labels, l = none) ∧ t'.ended = t.ended := by
  induction later with
  | nil => exact ⟨by simp, rfl⟩
  | snoc run last ih =>
    obtain ⟨quiet, same⟩ := ih
    cases last with
    | step h => simp [← same, live h] at ended
    | tell =>
      refine ⟨?_, same⟩
      intro l member
      rcases List.mem_append.1 member with old | new
      · exact quiet l old
      · simpa using new

namespace JobTask

variable {s : Surroundings σ} {adapter typeName : Value} {p : Plan}
  {firsts : Except Failure (List (Value × Call))} {labels : List (Option (OwnerLabel (List Event)))}
  {t : JobTask}

theorem Course.joined (course : Course s adapter typeName p firsts labels t)
    (ended : t.ended.isSome)
    {b : Batch ContextState Traversal.Fetched} (begun : t.state.batch = some b) : b.Joined := by
  obtain ⟨e, ended⟩ := Option.isSome_iff_exists.1 ended
  cases course with
  | fresh => cases begun
  | told => cases begun
  | unfilled => cases begun
  | owning all run =>
    cases begun
    exact (Owner.inv_of_run ContextTask.Step.running run).joined ended

theorem Course.raisedOwn (course : Course s adapter typeName p firsts labels t)
    {b : Batch ContextState Traversal.Fetched} (begun : t.state.batch = some b)
    (gaveUp : b.cause.isSome) {c : Cause} (ended : t.ended = some (.raised c)) :
    RaisedOwn labels b.tasks c := by
  cases course with
  | fresh => cases begun
  | told => cases begun
  | unfilled => cases begun
  | owning all run =>
    cases begun
    have own := (Owner.inv_of_run ContextTask.Step.running run).raisedOwn gaveUp ended
    cases c with
    | failure f => simpa [RaisedOwn, failures_cons, OwnerLabel.failure?] using own
    | cancellation => exact GivenUpAsTold.cons own _

end JobTask

/-- When a fetch has raised, every task of every batch below it has ended, no step begins a call any
more, and what each batch raised after giving up is its own: the failure of the first of its tasks
that failed, unless it had been told to give up. -/
theorem raised_leaves_nothing (s : Surroundings σ) (adapter typeName : Value) :
    (∀ p firsts labels t c, RequestRun s adapter typeName p firsts labels t →
      t.ended = some (.raised c) →
        (∀ b, t.state.batch = some b → b.Joined ∧ (b.cause.isSome → RaisedOwn labels b.tasks c)) ∧
        ∀ later t', Steps (Exposed (JobTask.Step s adapter typeName)) t later t' →
          ∀ l ∈ later, l = none) ∧
    ∀ jobs labels o c, ResourceRun s adapter typeName jobs labels o →
      o.ended = some (.raised c) →
        o.state.Joined ∧ RaisedOwn labels o.state.tasks c ∧
        (∀ n t b, o.state.tasks[n]? = some t → t.state.batch = some b →
          b.Joined ∧ (b.cause.isSome → ∀ c', t.ended = some (.raised c') →
            RaisedOwn (labelsAt n labels) b.tasks c')) ∧
        ∀ later o', Steps (Exposed (ResourceStep s adapter typeName)) o later o' →
          ∀ l ∈ later, l = none := by
  refine ⟨?_, ?_⟩
  · intro p firsts labels t c run raised
    have course := JobTask.course_of_run run
    have finished : t.ended.isSome := by simp [raised]
    refine ⟨?_, ?_⟩
    · intro b begun
      exact ⟨course.joined finished begun, fun gaveUp => course.raisedOwn begun gaveUp raised⟩
    · intro later t' rest
      exact (quiet_of_ended JobTask.Step.running finished rest).1
  · intro jobs labels o c run raised
    have inv := Owner.inv_of_run JobTask.Step.running run
    have finished : o.ended.isSome := by simp [raised]
    have gaveUp : o.state.cause.isSome := by
      rcases inv.closing _ raised with ⟨_, given, -⟩ | ⟨-, _, _, -, -, returned⟩
      · simp [given]
      · cases returned
    refine ⟨inv.joined raised, inv.raisedOwn gaveUp raised, ?_, ?_⟩
    · intro n t b found begun
      obtain ⟨t', started, course⟩ := inv.origin found
      rw [List.getElem?_map] at started
      obtain ⟨job, -, rfl⟩ := Option.map_eq_some_iff.1 started
      have course := JobTask.course_of_run course
      have ended := inv.joined raised t (List.mem_of_getElem? found)
      exact ⟨course.joined ended begun, fun given c' => course.raisedOwn begun given⟩
    · intro later o' rest
      exact (quiet_of_ended Owner.Step.running finished rest).1

def outage : Failure :=
  .transport "down" .null

theorem outage_run : ∃ labels o,
    ResourceRun anyAnswers .null (.str "T") [⟨plainPlan, [[]]⟩, ⟨plainPlan, [[]]⟩] labels o ∧
      o.ended = some (.raised (.failure outage)) := by
  have filled : (Fetch.Job.begin ⟨plainPlan, [[]]⟩).firsts = .ok [(.obj [], plainPlan.call)] := by
    cbv
  have opened : Traversal.opening (.obj [], plainPlan.call) = .ok [] := by cbv
  simp only [ResourceRun, List.map_cons, List.map_nil, JobTask.ofJob, filled]
  refine Steps.exists_cons (.step (.task (n := 0) rfl .begun)) ?_
  refine Steps.exists_cons (.step (.task (n := 1) rfl .begun)) ?_
  refine Steps.exists_cons (.step (.task (n := 0) rfl (.owning (.task (n := 0) rfl .opened)))) ?_
  refine Steps.exists_cons (.step (.task (n := 1) rfl (.owning (.task (n := 0) rfl .opened)))) ?_
  simp only [Channel.opened, opened]
  refine Steps.exists_cons
    (.step (.task (n := 0) rfl (.owning (.task (n := 0) rfl (.failed (f := outage) trivial))))) ?_
  refine Steps.exists_cons (.step (.task (n := 0) rfl (.owning (.caught rfl rfl)))) ?_
  refine Steps.exists_cons (.step (.task (n := 0) rfl (.owning (.released rfl (by decide))))) ?_
  refine Steps.exists_cons (.step (.caught rfl rfl)) ?_
  refine Steps.exists_cons (.step (.task (n := 1) rfl (.owning .told))) ?_
  refine Steps.exists_cons (.step (.task (n := 1) rfl (.owning (.task (n := 0) rfl .cancelled)))) ?_
  refine Steps.exists_cons (.step (.task (n := 1) rfl (.owning (.released rfl (by decide))))) ?_
  refine Steps.exists_cons (.step (.released rfl (by decide))) ?_
  exact ⟨[], _, .nil, rfl⟩

theorem outage_leaves_nothing : ∃ labels o,
    ResourceRun anyAnswers .null (.str "T") [⟨plainPlan, [[]]⟩, ⟨plainPlan, [[]]⟩] labels o ∧
      o.ended = some (.raised (.failure outage)) ∧ o.state.Joined ∧
      RaisedOwn labels o.state.tasks (.failure outage) := by
  obtain ⟨labels, o, run, raised⟩ := outage_run
  have left := (raised_leaves_nothing anyAnswers .null (.str "T")).2 _ labels o _ run raised
  exact ⟨labels, o, run, raised, left.1, left.2.1⟩

end Harvest.Schedule
