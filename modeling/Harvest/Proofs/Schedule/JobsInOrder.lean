import Harvest.Proofs.Schedule.InOrder

namespace Harvest

def Fetch.JobEnd.taskEnd? : Fetch.JobEnd → Option (Schedule.TaskEnd (List Item))
  | .items all => some (.returned all)
  | .failed _ f => some (.raised (.failure f))
  | .waiting | .exhausted => none

namespace Schedule

variable {σ : Type} {c : Collaborators σ} {adapter typeName : Value} {limit : Nat}

inductive JobTask.Reached : JobTask → Fetch.Traversed → Prop where
  | unfilled {job f endings} (fault : job.begin.firsts = .error f) :
    Reached ⟨⟨job.plan, .error f, none⟩, false, some (.raised (.failure f))⟩ ⟨job, endings⟩
  | begun {job filled b endings} (all : job.begin.firsts = .ok filled) (came : b.Came endings) :
    Reached ⟨⟨job.plan, .ok filled, some b⟩, false, none⟩ ⟨job, endings⟩

theorem JobTask.path_of_begin (job : Fetch.Job) (w : σ)
    {settled : Harvest.Batch.Settled σ Traversal.Fetched}
    (h : Harvest.Batch.runAll ((job.begin.firsts.toOption.getD []).map
      (Fetch.traverse c limit job.plan)) w = settled)
    (enough : ∀ e ∈ settled.endings, e ≠ .exhausted) :
    ∃ t, Path (Step c.surroundings adapter typeName) (OwnerLabel.events id) (ofJob job)
        (callsIn settled.events) t ∧ Reached t ⟨job, settled.endings⟩ := by
  unfold ofJob
  cases all : job.begin.firsts with
  | error f =>
    rw [all] at h
    obtain rfl := h.symm
    exact ⟨_, .single .unfilled rfl, .unfilled all⟩
  | ok filled =>
    rw [all] at h
    obtain ⟨b, path, came⟩ := path_of_contexts job.plan filled w h enough
    exact ⟨_, path, .begun all came⟩

theorem paths_of_traverseAll (adapter typeName : Value) (jobs : List Fetch.Job) (w : σ)
    (enough : ∀ t ∈ (Fetch.traverseAll c limit (jobs.map Fetch.Job.begin) w).2.2,
      ∀ e ∈ t.endings, e ≠ .exhausted) :
    ∃ goals, Owner.Goals (JobTask.Step c.surroundings adapter typeName) (OwnerLabel.events id)
        (jobs.map JobTask.ofJob) goals ∧
      goals.flatMap (·.1) =
        callsIn (Fetch.traverseAll c limit (jobs.map Fetch.Job.begin) w).2.1 ∧
      List.Forall₂ (fun goal t => JobTask.Reached goal.2 t) goals
        (Fetch.traverseAll c limit (jobs.map Fetch.Job.begin) w).2.2 := by
  induction jobs generalizing w with
  | nil => exact ⟨[], .nil, rfl, .nil⟩
  | cons job rest ih =>
    obtain ⟨here, others⟩ := List.forall_mem_cons.1 enough
    obtain ⟨t, path, reached⟩ := JobTask.path_of_begin job w rfl here
    obtain ⟨goals, paths, same, all⟩ := ih _ others
    refine ⟨(_, t) :: goals, .cons path paths, ?_, .cons reached all⟩
    simp only [List.flatMap_cons, same]
    exact (callsIn_append _ _).symm

theorem begun_of_traverseAll (c : Collaborators σ) (limit : Nat) (jobs : List Fetch.Job) (w : σ) :
    (Fetch.traverseAll c limit (jobs.map Fetch.Job.begin) w).2.2.map (fun t => t.job.begin) =
      jobs.map Fetch.Job.begin := by
  induction jobs generalizing w with
  | nil => rfl
  | cons job rest ih => exact congrArg (job.begin :: ·) (ih _)

section

variable {tasks : List JobTask} {traversed : List Fetch.Traversed}

theorem failure?_of_reached (reached : List.Forall₂ JobTask.Reached tasks traversed) :
    tasks.findSome? Task.failure? = Fetch.firstUnfilled? (traversed.map fun t => t.job.begin) := by
  unfold Fetch.firstUnfilled?
  induction reached with
  | nil => rfl
  | cons here _ ih =>
    cases here with
    | unfilled fault => simp [List.findSome?_cons, Task.failure?, fault]
    | begun all => simpa [List.findSome?_cons, Task.failure?, all] using ih

theorem running_of_reached (reached : List.Forall₂ JobTask.Reached tasks traversed)
    (filled : tasks.findSome? Task.failure? = none) : ∀ t ∈ tasks, t.ended = none := by
  intro t member
  have unfailed := List.findSome?_eq_none_iff.1 filled t member
  obtain ⟨n, found⟩ := List.getElem?_of_mem member
  obtain ⟨_, -, here⟩ := getElem?_of_forall₂ reached found
  cases here with
  | unfilled fault => cases unfailed
  | begun all => rfl

end

theorem callsIn_finishJob (c : Collaborators σ) (typeName : Value) (t : Fetch.Traversed) (w : σ) :
    callsIn (Fetch.finishJob c typeName t w).2.1 = [] := by
  unfold Fetch.finishJob
  split
  · rfl
  · rfl
  · rfl
  · rfl
  next fetched _ _ =>
    have quiet := callsIn_finish c.adjust t.job.plan typeName fetched w
    split <;> simp_all

theorem finishAll_cons (c : Collaborators σ) (typeName : Value) (t : Fetch.Traversed)
    (rest : List Fetch.Traversed) (w : σ) :
    (Fetch.finishAll c typeName (t :: rest) w).2 =
      ((Fetch.finishJob c typeName t w).2.1 ++
          (Fetch.finishAll c typeName rest (Fetch.finishJob c typeName t w).1).2.1,
        (Fetch.finishJob c typeName t w).2.2 ::
          (Fetch.finishAll c typeName rest (Fetch.finishJob c typeName t w).1).2.2) := rfl

theorem callsIn_finishAll (c : Collaborators σ) (typeName : Value) (traversed : List Fetch.Traversed)
    (w : σ) : callsIn (Fetch.finishAll c typeName traversed w).2.1 = [] := by
  induction traversed generalizing w with
  | nil => rfl
  | cons t rest ih =>
    rw [finishAll_cons, callsIn_append, callsIn_finishJob, ih]
    rfl

theorem JobTask.path_of_finishJob (job : Fetch.Job)
    (firsts : Except Failure (List (Value × Call))) {b : Batch ContextState Traversal.Fetched}
    {endings : List (Ending Traversal.Fetched)} (came : b.Came endings) (w : σ) :
    ∃ t', Path (Step c.surroundings adapter typeName) (OwnerLabel.events id)
        ⟨⟨job.plan, firsts, some b⟩, false, none⟩ [] t' ∧
      t'.ended = (Fetch.finishJob c typeName ⟨job, endings⟩ w).2.2.taskEnd? := by
  unfold Fetch.finishJob
  split
  next f joined => exact path_of_failed adapter typeName _ firsts came joined
  · exact ⟨_, .refl _, rfl⟩
  · exact ⟨_, .refl _, rfl⟩
  next joined => exact path_of_done adapter typeName _ firsts came joined w
  next fetched _ joined =>
    obtain ⟨t', path, ended⟩ := path_of_done adapter typeName job.plan firsts came joined w
    refine ⟨t', path, ?_⟩
    rw [ended]
    split <;> simp_all [Ending.taskEnd?, Fetch.JobEnd.taskEnd?]

theorem goals_of_finishAll (adapter typeName : Value) {tasks : List JobTask}
    {traversed : List Fetch.Traversed}
    (reached : List.Forall₂ JobTask.Reached tasks traversed)
    (filled : ∀ t ∈ tasks, t.ended = none) (w : σ) :
    List.Forall₂ (fun t jobEnd => ∃ t', Path (JobTask.Step c.surroundings adapter typeName)
        (OwnerLabel.events id) t [] t' ∧ t'.ended = Fetch.JobEnd.taskEnd? jobEnd)
      tasks (Fetch.finishAll c typeName traversed w).2.2 := by
  induction reached generalizing w with
  | nil => exact .nil
  | @cons task t tasks traversed here _ ih =>
    obtain ⟨running, others⟩ := List.forall_mem_cons.1 filled
    rw [finishAll_cons]
    refine .cons ?_ (ih others _)
    cases here with
    | unfilled fault => cases running
    | begun all came => exact JobTask.path_of_finishJob _ _ came w

theorem mem_of_firstFailure? {ends : List Fetch.JobEnd} {f : Failure}
    (first : Fetch.firstFailure? ends = some f) : ∃ round, .failed round f ∈ ends := by
  unfold Fetch.firstFailure? Fetch.failureIn? at first
  obtain ⟨round, -, found⟩ := List.exists_of_findSome?_eq_some first
  obtain ⟨jobEnd, member, failed⟩ := List.exists_of_findSome?_eq_some found
  cases jobEnd with
  | failed r f' =>
    simp only [Option.ite_none_right_eq_some, Option.some.injEq] at failed
    obtain ⟨-, rfl⟩ := failed
    exact ⟨r, member⟩
  | _ => cases failed

theorem ends_of_allItems? {ends : List Fetch.JobEnd} {items : List Item}
    (all : Fetch.allItems? ends = some items) :
    ∃ results : List (List Item), ends = results.map .items ∧ results.flatten = items := by
  induction ends generalizing items with
  | nil =>
    cases all
    exact ⟨[], rfl, rfl⟩
  | cons jobEnd rest ih =>
    cases jobEnd with
    | items first =>
      obtain ⟨others, found, rfl⟩ := Option.map_eq_some_iff.1 all
      obtain ⟨results, rfl, rfl⟩ := ih found
      exact ⟨first :: results, rfl, rfl⟩
    | _ => cases all

theorem callsIn_begun (adapter typeName : Value) (begun : List Fetch.Begun) :
    callsIn (begun.flatMap (Fetch.Begun.events adapter typeName)) = [] := by
  refine callsIn_notices fun e member => ?_
  obtain ⟨b, -, inside⟩ := List.mem_flatMap.1 member
  unfold Fetch.Begun.events at inside
  rcases List.mem_cons.1 inside with rfl | later
  · exact ⟨_, rfl⟩
  · split at later
    · exact ⟨_, List.mem_singleton.1 later⟩
    · cases later

theorem callsIn_givenUp_all (traversed : List Fetch.Traversed) :
    callsIn (Fetch.givenUp traversed) = [] := by
  unfold callsIn Fetch.givenUp
  rw [List.filterMap_eq_nil_iff]
  intro e member
  obtain ⟨t, -, inside⟩ := List.mem_flatMap.1 member
  rw [(List.mem_replicate.1 inside).2]
  rfl

theorem callsIn_runJobs (adapter : Value) (c : Collaborators σ) (limit : Nat) (typeName : Value)
    (jobs : List Fetch.Job) (w : σ) :
    callsIn (Fetch.runJobs adapter c limit typeName jobs w).events =
      callsIn (Fetch.traverseAll c limit (jobs.map Fetch.Job.begin) w).2.1 := by
  unfold Fetch.runJobs
  dsimp only
  split
  · simp [callsIn_begun, callsIn_givenUp_all]
  · split <;> simp [callsIn_begun, callsIn_givenUp_all, callsIn_finishAll]

section

variable {jobs : List Fetch.Job} {f : Failure}

theorem ending_of_unfilled (unfilled : Fetch.firstUnfilled? (jobs.map Fetch.Job.begin) = some f)
    (adapter typeName : Value) (w : σ) :
    (Fetch.runJobs adapter c limit typeName jobs w).ending = .failed f := by
  simp only [Fetch.runJobs, unfilled]

theorem ending_of_filled (filled : Fetch.firstUnfilled? (jobs.map Fetch.Job.begin) = none)
    (adapter typeName : Value) (w : σ) :
    (Fetch.runJobs adapter c limit typeName jobs w).ending =
      Fetch.joinJobs (Fetch.finishAll c typeName
        (Fetch.traverseAll c limit (jobs.map Fetch.Job.begin) w).2.2
        (Fetch.traverseAll c limit (jobs.map Fetch.Job.begin) w).1).2.2 := by
  simp only [Fetch.runJobs, filled]

end

theorem goals_of_results {tasks : List JobTask} {results : List (List Item)}
    (each : List.Forall₂ (fun t items => ∃ t', Path (JobTask.Step c.surroundings adapter typeName)
      (OwnerLabel.events id) t [] t' ∧ t'.ended = some (.returned items)) tasks results) :
    ∃ goals, Owner.Goals (JobTask.Step c.surroundings adapter typeName) (OwnerLabel.events id)
        tasks goals ∧ goals.flatMap (·.1) = [] ∧
      List.Forall₂ (fun t items => t.ended = some (.returned items)) (goals.map (·.2)) results := by
  induction each with
  | nil => exact ⟨[], .nil, rfl, .nil⟩
  | cons here _ ih =>
    obtain ⟨t', path, ended⟩ := here
    obtain ⟨goals, paths, quiet, returned⟩ := ih
    exact ⟨([], t') :: goals, .cons path paths, by simp [quiet], .cons ended returned⟩

theorem path_of_joinJobs {tasks : List JobTask} {ends : List Fetch.JobEnd}
    (each : List.Forall₂ (fun t jobEnd => ∃ t', Path (JobTask.Step c.surroundings adapter typeName)
      (OwnerLabel.events id) t [] t' ∧ t'.ended = Fetch.JobEnd.taskEnd? jobEnd) tasks ends)
    (running : ∀ t ∈ tasks, t.ended = none) :
    ∃ o, Path (ResourceStep c.surroundings adapter typeName)
        (OwnerLabel.events (OwnerLabel.events id)) ⟨⟨tasks, none, none⟩, false, none⟩ [] o ∧
      o.ended = (Fetch.joinJobs ends).taskEnd? := by
  unfold Fetch.joinJobs
  split
  next f first =>
    obtain ⟨round, member⟩ := mem_of_firstFailure? first
    obtain ⟨n, found⟩ := List.getElem?_of_mem member
    obtain ⟨t, here, t', path, ended⟩ := getElem?_of_forall₂ each.flip found
    have lifted := Owner.lift (fun items events e => events = [] ∧ e = TaskEnd.returned items.flatten)
      JobTask.Step.running (b := ⟨tasks, none, none⟩) false here
      (running t (List.mem_of_getElem? here)) path
    have failed : t'.failure? = some f := Task.failure?_eq_some.2 ended
    exact Owner.raises_first _ JobTask.Step.running lifted rfl (by simp [failed])
      fun u _ => JobTask.ends_of_told c.surroundings adapter typeName u
  · split
    next items all =>
      obtain ⟨results, rfl, rfl⟩ := ends_of_allItems? all
      obtain ⟨goals, paths, quiet, returned⟩ :=
        goals_of_results (List.forall₂_map_right_iff.1 each)
      have path := Owner.in_order
        (fun items events e => events = [] ∧ e = TaskEnd.returned items.flatten)
        JobTask.Step.running false paths running [] none none
      rw [quiet] at path
      exact ⟨_, path.snoc (.closed rfl (Batch.results?_of_returned returned) ⟨rfl, rfl⟩) rfl, rfl⟩
    · refine ⟨_, .refl _, ?_⟩
      split <;> rfl

theorem runJobs_in_order (adapter typeName : Value) (jobs : List Fetch.Job) (w : σ)
    (enough : ∀ t ∈ (Fetch.traverseAll c limit (jobs.map Fetch.Job.begin) w).2.2,
      ∀ e ∈ t.endings, e ≠ .exhausted) :
    ∃ labels o, ResourceRun c.surroundings adapter typeName jobs labels o ∧ none ∉ labels ∧
      o.ended = (Fetch.runJobs adapter c limit typeName jobs w).ending.taskEnd? ∧
      resourceCalls labels = callsIn (Fetch.runJobs adapter c limit typeName jobs w).events := by
  obtain ⟨goals, paths, sent, reached⟩ :=
    paths_of_traverseAll adapter typeName jobs w enough
  have running : ∀ t ∈ jobs.map JobTask.ofJob, t.ended = none := by
    intro t member
    obtain ⟨job, -, rfl⟩ := List.mem_map.1 member
    rfl
  have path := Owner.in_order (fun items events e => events = [] ∧ e = TaskEnd.returned items.flatten)
    JobTask.Step.running false paths running [] none none
  have tasks : List.Forall₂ JobTask.Reached (goals.map (·.2)) _ :=
    List.forall₂_map_left_iff.2 reached
  have first : goals.findSome? (·.2.failure?) =
      Fetch.firstUnfilled? (jobs.map Fetch.Job.begin) := by
    have failures := failure?_of_reached tasks
    rw [begun_of_traverseAll, List.findSome?_map] at failures
    exact failures
  suffices done : ∃ o, Path (ResourceStep c.surroundings adapter typeName)
      (OwnerLabel.events (OwnerLabel.events id)) (Owner.start (jobs.map JobTask.ofJob))
      (goals.flatMap (·.1)) o ∧
      o.ended = (Fetch.runJobs adapter c limit typeName jobs w).ending.taskEnd? by
    obtain ⟨o, path, ended⟩ := done
    obtain ⟨labels, run, untold, same⟩ := path.exposed
    refine ⟨labels, o, run, untold, ended, ?_⟩
    rw [callsIn_runJobs, ← sent]
    exact same
  cases unfilled : Fetch.firstUnfilled? (jobs.map Fetch.Job.begin) with
  | some f =>
    rw [unfilled] at first
    rw [ending_of_unfilled unfilled]
    exact Owner.raises_first _ JobTask.Step.running path rfl (by simp [first])
      fun u _ => JobTask.ends_of_told c.surroundings adapter typeName u
  | none =>
    rw [unfilled] at first
    rw [ending_of_filled unfilled]
    have going := running_of_reached tasks (by rw [List.findSome?_map]; exact first)
    obtain ⟨o, rest, ended⟩ := path_of_joinJobs (goals_of_finishAll adapter typeName tasks going
      (Fetch.traverseAll c limit (jobs.map Fetch.Job.begin) w).1) going
    rw [first] at path
    have whole := path.trans rest
    rw [List.append_nil] at whole
    exact ⟨o, whole, ended⟩

theorem requestAll_of_jobs {definitions : Registry.Definitions} {typeName : String} {pool : Value}
    {jobs : List Fetch.Job} (bound : (Fetch.jobs definitions pool
      ((definitions.requests.query typeName).map (·.value))).result = .ok jobs) (w : σ) :
    callsIn (Fetch.requestAll definitions c limit typeName pool w).events =
        callsIn (Fetch.runJobs definitions.adapterName c limit (.str typeName) jobs w).events ∧
      (Fetch.requestAll definitions c limit typeName pool w).ending =
        (Fetch.runJobs definitions.adapterName c limit (.str typeName) jobs w).ending := by
  unfold Fetch.requestAll
  rw [Run.bind_of_done _ (Run.ending_ofNoted bound w), callsIn_append, callsIn_ofNoted]
  cases jobs with
  | nil => exact ⟨rfl, rfl⟩
  | cons job rest => exact ⟨rfl, rfl⟩

/-- The fetch of all requests of a resource type is carried out in one of the orders in which it may
go. -/
theorem requestAll_in_order {definitions : Registry.Definitions} {typeName : String} {pool : Value}
    {jobs : List Fetch.Job} (bound : (Fetch.jobs definitions pool
      ((definitions.requests.query typeName).map (·.value))).result = .ok jobs) (w : σ)
    (enough : ∀ t ∈ (Fetch.traverseAll c limit (jobs.map Fetch.Job.begin) w).2.2,
      ∀ e ∈ t.endings, e ≠ .exhausted) :
    ∃ labels o, ResourceRun c.surroundings definitions.adapterName (.str typeName) jobs labels o ∧
      none ∉ labels ∧
      o.ended = (Fetch.requestAll definitions c limit typeName pool w).ending.taskEnd? ∧
      resourceCalls labels =
        callsIn (Fetch.requestAll definitions c limit typeName pool w).events := by
  obtain ⟨sent, ending⟩ := requestAll_of_jobs bound w
  rw [sent, ending]
  exact runJobs_in_order definitions.adapterName (.str typeName) jobs w enough

end Schedule

end Harvest
