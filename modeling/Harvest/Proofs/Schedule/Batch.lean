import Harvest.Proofs.Schedule.Task

namespace Harvest.Schedule

variable {κ α β L : Type}

/-- Tasks that their owner waits for. The batch remembers the failure of the task that was the first
one to fail, and why it was given up. -/
structure Batch (κ α : Type) where
  tasks : List (Task κ α)
  first : Option Failure
  cause : Option Cause

namespace Batch

def start (tasks : List (Task κ α)) : Batch κ α :=
  ⟨tasks, none, none⟩

def put (b : Batch κ α) (n : Nat) (t : Task κ α) : Batch κ α :=
  ⟨b.tasks.set n t, b.first.or t.failure?, b.cause⟩

def giveUp (b : Batch κ α) (c : Cause) : Batch κ α :=
  ⟨b.tasks.map Task.tell, b.first, some c⟩

def Joined (b : Batch κ α) : Prop :=
  ∀ t ∈ b.tasks, t.ended.isSome

instance (b : Batch κ α) : Decidable b.Joined :=
  inferInstanceAs (Decidable (∀ t ∈ b.tasks, t.ended.isSome))

def results? (b : Batch κ α) : Option (List α) :=
  b.tasks.mapM Task.result?

theorem results?_eq_some {b : Batch κ α} {results : List α} (h : b.results? = some results) :
    b.tasks.map Task.ended = results.map fun a => some (.returned a) := by
  unfold results? at h
  generalize b.tasks = tasks at h ⊢
  induction tasks generalizing results with
  | nil => cases h; rfl
  | cons t rest ih =>
    simp only [List.mapM_cons, Option.bind_eq_bind, Option.bind_eq_some_iff, Option.pure_def,
      Option.some.injEq] at h
    obtain ⟨a, ha, others, ho, rfl⟩ := h
    simp [Task.result?_eq_some.1 ha, ih ho]

theorem joined_of_results {b : Batch κ α} {results : List α} (h : b.results? = some results) :
    b.Joined := by
  intro t member
  have inside : t.ended ∈ b.tasks.map Task.ended := List.mem_map_of_mem member
  rw [results?_eq_some h] at inside
  obtain ⟨a, -, same⟩ := List.mem_map.1 inside
  simp [← same]

end Batch

/-- What a step of an owner shows: something of its own, a step of a task, or that the batch is
given up. -/
inductive OwnerLabel (L : Type) where
  | own (events : List Event)
  | task (n : Nat) (l : L) (failure : Option Failure)
  | giveUp

def OwnerLabel.at (n : Nat) : OwnerLabel L → List (Option L)
  | own _ => []
  | task m l _ => if m = n then [some l] else []
  | giveUp => [none]

def OwnerLabel.events (shown : L → List Event) : OwnerLabel L → List Event
  | own events => events
  | task _ l _ => shown l
  | giveUp => []

def OwnerLabel.failure? : OwnerLabel L → Option Failure
  | task _ _ failure => failure
  | _ => none

def labelsAt (n : Nat) (labels : List (Option (OwnerLabel L))) : List (Option L) :=
  labels.flatMap fun l => (l.map (·.at n)).getD []

def failures (labels : List (Option (OwnerLabel L))) : List Failure :=
  labels.filterMap fun l => l.bind (·.failure?)

def GivenUpAsTold (labels : List (Option (OwnerLabel L))) : Prop :=
  ∃ before after, labels = before ++ some .giveUp :: after ∧ none ∈ before

theorem GivenUpAsTold.append {labels : List (Option (OwnerLabel L))} (h : GivenUpAsTold labels)
    (later : List (Option (OwnerLabel L))) : GivenUpAsTold (labels ++ later) := by
  obtain ⟨before, after, rfl, told⟩ := h
  exact ⟨before, after ++ later, by simp, told⟩

theorem GivenUpAsTold.cons {labels : List (Option (OwnerLabel L))} (h : GivenUpAsTold labels)
    (l : Option (OwnerLabel L)) : GivenUpAsTold (l :: labels) := by
  obtain ⟨before, after, rfl, told⟩ := h
  exact ⟨l :: before, after, rfl, List.mem_cons_of_mem l told⟩

@[simp] theorem OwnerLabel.events_own (shown : L → List Event) (events : List Event) :
    (OwnerLabel.own events).events shown = events := rfl

@[simp] theorem OwnerLabel.events_task (shown : L → List Event) (n : Nat) (l : L)
    (failure : Option Failure) : (OwnerLabel.task n l failure).events shown = shown l := rfl

@[simp] theorem OwnerLabel.events_giveUp (shown : L → List Event) :
    (OwnerLabel.giveUp : OwnerLabel L).events shown = [] := rfl

@[simp] theorem labelsAt_nil (n : Nat) :
    labelsAt n ([] : List (Option (OwnerLabel L))) = [] := rfl

@[simp] theorem labelsAt_append (n : Nat) (first second : List (Option (OwnerLabel L))) :
    labelsAt n (first ++ second) = labelsAt n first ++ labelsAt n second := by
  simp [labelsAt]

@[simp] theorem labelsAt_cons (n : Nat) (l : Option (OwnerLabel L))
    (labels : List (Option (OwnerLabel L))) :
    labelsAt n (l :: labels) = (l.map (·.at n)).getD [] ++ labelsAt n labels := by
  simp [labelsAt]

@[simp] theorem failures_nil : failures ([] : List (Option (OwnerLabel L))) = [] := rfl

@[simp] theorem failures_append (first second : List (Option (OwnerLabel L))) :
    failures (first ++ second) = failures first ++ failures second := by
  simp [failures]

theorem failures_cons (l : Option (OwnerLabel L)) (labels : List (Option (OwnerLabel L))) :
    failures (l :: labels) = (l.bind (·.failure?)).toList ++ failures labels := by
  unfold failures
  cases h : l.bind (·.failure?) <;> simp [h]

abbrev Owner (κ α β : Type) := Task (Batch κ α) β

namespace Owner

/-- A step of an owner whose batch has begun. `child` are the steps of its tasks, and `close` says
what the owner makes of their results. -/
inductive Step (child : Task κ α → L → Task κ α → Prop)
    (close : List α → List Event → TaskEnd β → Prop) :
    Owner κ α β → OwnerLabel L → Owner κ α β → Prop where
  | task {b told n t l t'} (found : b.tasks[n]? = some t) (h : child t l t') :
    Step child close ⟨b, told, none⟩ (.task n l t'.failure?) ⟨b.put n t', told, none⟩
  | caught {b told f} (goingOn : b.cause = none) (first : b.first = some f) :
    Step child close ⟨b, told, none⟩ .giveUp ⟨b.giveUp (.failure f), false, none⟩
  | told {b} : Step child close ⟨b, true, none⟩ .giveUp ⟨b.giveUp .cancellation, false, none⟩
  | released {b c} (given : b.cause = some c) (joined : b.Joined) :
    Step child close ⟨b, false, none⟩ (.own []) ⟨b, false, some (.raised c)⟩
  | closed {b results events e} (goingOn : b.cause = none) (all : b.results? = some results)
      (h : close results events e) :
    Step child close ⟨b, false, none⟩ (.own events) ⟨b, false, some e⟩

def start (tasks : List (Task κ α)) : Owner κ α β :=
  .fresh (.start tasks)

variable {child : Task κ α → L → Task κ α → Prop}
  {close : List α → List Event → TaskEnd β → Prop}

theorem Step.running {o o' : Owner κ α β} {l : OwnerLabel L} (h : Step child close o l o') :
    o.ended = none := by
  cases h <;> rfl

/-- How an owner may end: all its tasks have ended and it raises why it gave up, or all its tasks
have returned. -/
def Over (close : List α → List Event → TaskEnd β → Prop) (b : Batch κ α) (e : TaskEnd β) : Prop :=
  (∃ c, b.cause = some c ∧ b.Joined ∧ e = .raised c) ∨
    (b.cause = none ∧ ∃ results events, b.results? = some results ∧ close results events e)

/-- What holds in the course of a batch of `tasks`. -/
structure Inv (child : Task κ α → L → Task κ α → Prop)
    (close : List α → List Event → TaskEnd β → Prop) (tasks : List (Task κ α))
    (labels : List (Option (OwnerLabel L))) (o : Owner κ α β) : Prop where
  length : o.state.tasks.length = tasks.length
  tasks : ∀ n t, tasks[n]? = some t →
    ∃ t', o.state.tasks[n]? = some t' ∧ Steps (Exposed child) t (labelsAt n labels) t'
  first : o.state.first = (failures labels).head?
  failed : ∀ f ∈ failures labels, ∃ t ∈ o.state.tasks, t.failure? = some f
  failure : ∀ f, o.state.cause = some (.failure f) → o.state.first = some f
  cancellation : o.state.cause = some .cancellation → GivenUpAsTold labels
  told : o.told = true → none ∈ labels
  closing : ∀ e, o.ended = some e → Over close o.state e

namespace Inv

variable {tasks : List (Task κ α)} {labels : List (Option (OwnerLabel L))} {o o' : Owner κ α β}

theorem start : Inv child close tasks [] (Owner.start tasks) where
  length := rfl
  tasks n t found := ⟨t, found, .nil⟩
  first := rfl
  failed f member := by cases member
  failure f given := by cases given
  cancellation given := by cases given
  told given := by cases given
  closing e given := by cases given

theorem tell (inv : Inv child close tasks labels o) :
    Inv child close tasks (labels ++ [none]) o.tell where
  length := inv.length
  tasks n t found := by simpa using inv.tasks n t found
  first := by simpa [failures] using inv.first
  failed f member := inv.failed f (by simpa [failures] using member)
  failure := inv.failure
  cancellation given := (inv.cancellation given).append _
  told _ := by simp
  closing := inv.closing

theorem stepTask (live : ∀ {t l t'}, child t l t' → t.ended = none) {b : Batch κ α} {told : Bool}
    {n : Nat} {t t' : Task κ α} {l : L} (inv : Inv child close tasks labels ⟨b, told, none⟩)
    (found : b.tasks[n]? = some t) (h : child t l t') :
    Inv child close tasks (labels ++ [some (.task n l t'.failure?)]) ⟨b.put n t', told, none⟩ where
  length := by simpa [Batch.put] using inv.length
  tasks m s inside := by
    obtain ⟨s', at_m, run⟩ := inv.tasks m s inside
    by_cases same : n = m
    · subst same
      obtain rfl : t = s' := Option.some.inj (found.symm.trans at_m)
      have inBounds := (List.getElem?_eq_some_iff.1 found).1
      refine ⟨t', by simp [Batch.put, inBounds], ?_⟩
      simpa [OwnerLabel.at] using run.snoc (.step h)
    · refine ⟨s', by simpa [Batch.put, List.getElem?_set_ne same] using at_m, ?_⟩
      simpa [OwnerLabel.at, same] using run
  first := by
    have before := inv.first
    simp only at before
    simp only [Batch.put, failures_append, List.head?_append, before]
    cases t'.failure? <;> simp [failures, OwnerLabel.failure?]
  failed f member := by
    have inBounds := (List.getElem?_eq_some_iff.1 found).1
    rw [failures_append, List.mem_append] at member
    rcases member with old | new
    · obtain ⟨s, inside, failed⟩ := inv.failed f old
      obtain ⟨m, at_m⟩ := List.getElem?_of_mem inside
      -- the task that steps has not failed before
      have other : n ≠ m := by
        rintro rfl
        obtain rfl : t = s := Option.some.inj (found.symm.trans at_m)
        simp [Task.failure?_of_running (live h)] at failed
      have kept : (b.put n t').tasks[m]? = some s := by
        simpa [Batch.put, List.getElem?_set_ne other] using at_m
      exact ⟨s, List.mem_of_getElem? kept, failed⟩
    · refine ⟨t', List.mem_set inBounds t', ?_⟩
      cases failed : t'.failure? <;> simp_all [failures, OwnerLabel.failure?]
  failure f given := by
    have before : b.first = some f := inv.failure f given
    simp [Batch.put, before]
  cancellation given := (inv.cancellation given).append _
  told given := by simp [inv.told given]
  closing e given := by cases given

theorem stepGiveUp {b : Batch κ α} {told : Bool} {c : Cause}
    (inv : Inv child close tasks labels ⟨b, told, none⟩)
    (own : ∀ f, c = .failure f → b.first = some f)
    (foreign : c = .cancellation → none ∈ labels) :
    Inv child close tasks (labels ++ [some .giveUp]) ⟨b.giveUp c, false, none⟩ where
  length := by simpa [Batch.giveUp] using inv.length
  tasks n t inside := by
    obtain ⟨t', found, run⟩ := inv.tasks n t inside
    have found : b.tasks[n]? = some t' := found
    refine ⟨t'.tell, by simp [Batch.giveUp, found], ?_⟩
    simpa [OwnerLabel.at] using run.snoc (.tell t')
  first := by simpa [failures, OwnerLabel.failure?, Batch.giveUp] using inv.first
  failed f member := by
    obtain ⟨t, inside, failed⟩ := inv.failed f (by simpa [failures, OwnerLabel.failure?] using member)
    exact ⟨t.tell, List.mem_map_of_mem inside, failed⟩
  failure f given := own f (Option.some.inj given)
  cancellation given := ⟨labels, [], rfl, foreign (Option.some.inj given)⟩
  told given := by cases given
  closing e given := by cases given

theorem stepEnd {b : Batch κ α} {e : TaskEnd β} {events : List Event}
    (inv : Inv child close tasks labels ⟨b, false, none⟩) (finished : Over close b e) :
    Inv child close tasks (labels ++ [some (.own events)]) ⟨b, false, some e⟩ where
  length := inv.length
  tasks n t inside := by simpa [OwnerLabel.at] using inv.tasks n t inside
  first := by simpa [failures, OwnerLabel.failure?] using inv.first
  failed f member := inv.failed f (by simpa [failures, OwnerLabel.failure?] using member)
  failure := inv.failure
  cancellation given := (inv.cancellation given).append _
  told given := by cases given
  closing e' given := by cases given; exact finished

theorem step (live : ∀ {t l t'}, child t l t' → t.ended = none) {l : OwnerLabel L}
    (inv : Inv child close tasks labels o) (h : Step child close o l o') :
    Inv child close tasks (labels ++ [some l]) o' := by
  cases h with
  | task found h => exact inv.stepTask live found h
  | caught goingOn first =>
    refine inv.stepGiveUp ?_ ?_
    · rintro f same
      cases same
      exact first
    · rintro same
      cases same
  | told =>
    refine inv.stepGiveUp ?_ fun _ => inv.told rfl
    rintro f same
    cases same
  | released given joined => exact inv.stepEnd (.inl ⟨_, given, joined, rfl⟩)
  | closed goingOn all h => exact inv.stepEnd (.inr ⟨goingOn, _, _, all, h⟩)

end Inv

theorem inv_of_run (live : ∀ {t l t'}, child t l t' → t.ended = none) {tasks : List (Task κ α)}
    {labels : List (Option (OwnerLabel L))} {o : Owner κ α β}
    (run : Steps (Exposed (Step child close)) (start tasks) labels o) :
    Inv child close tasks labels o := by
  refine run.invariant Inv.start ?_
  intro labels o l o' inv h
  cases h with
  | step h => exact inv.step live h
  | tell => exact inv.tell

section Ended

variable {tasks : List (Task κ α)} {labels : List (Option (OwnerLabel L))} {o : Owner κ α β}

theorem Inv.joined (inv : Inv child close tasks labels o) {e : TaskEnd β} (ended : o.ended = some e) :
    o.state.Joined := by
  rcases inv.closing e ended with ⟨c, -, joined, -⟩ | ⟨-, results, events, all, -⟩
  · exact joined
  · exact Batch.joined_of_results all

/-- What an owner raises after it gave up: the first failure among its tasks, or the cancellation,
if it had been told to give up itself. -/
theorem Inv.raised_own (inv : Inv child close tasks labels o) {c given : Cause}
    (gaveUp : o.state.cause = some given) (ended : o.ended = some (.raised c)) :
    (∀ f, c = .failure f → (failures labels).head? = some f) ∧
      (c = .cancellation → GivenUpAsTold labels) := by
  rcases inv.closing _ ended with ⟨c', same, -, h⟩ | ⟨goingOn, -⟩
  · obtain rfl : c = c' := TaskEnd.raised.inj h
    refine ⟨?_, ?_⟩
    · rintro f rfl
      rw [← inv.first]
      exact inv.failure f same
    · rintro rfl
      exact inv.cancellation same
  · rw [gaveUp] at goingOn
    cases goingOn

theorem Inv.origin (inv : Inv child close tasks labels o) {n : Nat} {t' : Task κ α}
    (found : o.state.tasks[n]? = some t') :
    ∃ t, tasks[n]? = some t ∧ Steps (Exposed child) t (labelsAt n labels) t' := by
  have inBounds : n < tasks.length := inv.length ▸ (List.getElem?_eq_some_iff.1 found).1
  have started := List.getElem?_eq_getElem inBounds
  obtain ⟨u, here, run⟩ := inv.tasks n _ started
  obtain rfl : t' = u := Option.some.inj (found.symm.trans here)
  exact ⟨_, started, run⟩

theorem Inv.failing (inv : Inv child close tasks labels o) {f : Failure}
    (given : o.state.cause = some (.failure f)) :
    ∃ n t t', tasks[n]? = some t ∧ Steps (Exposed child) t (labelsAt n labels) t' ∧
      t'.ended = some (.raised (.failure f)) := by
  have head := inv.failure f given
  rw [inv.first] at head
  obtain ⟨t', member, failed⟩ := inv.failed f (List.mem_of_head? head)
  obtain ⟨n, found⟩ := List.getElem?_of_mem member
  obtain ⟨t, started, run⟩ := inv.origin found
  exact ⟨n, t, t', started, run, Task.failure?_eq_some.1 failed⟩

end Ended

end Owner

end Harvest.Schedule
