import Mathlib
import Harvest.Proofs.Registry
import Harvest.Proofs.Schedule.Calls
import Harvest.Proofs.Schedule.Progress

namespace Harvest

theorem Traversal.opening_readsData (first : Value × Call) : ReadsData (opening first) := by
  intro f h
  unfold opening contextNames at h
  split at h
  · split at h <;> cases h
    rfl
  · cases h
    rfl

namespace Schedule

variable {σ : Type}

/-- Clients and hooks that do not claim a mistake in the configuration themselves. -/
structure Surroundings.Sound (s : Surroundings σ) : Prop where
  clients : ∀ client call f, s.answers client call (.failed f) → f.isDefinition = false
  hooks : ∀ hook c w f, (s.adjust hook c w).1 = .error f → f.isDefinition = false

variable {s : Surroundings σ}

theorem ContextTask.Step.sound (sound : s.Sound) {ch : Channel}
    (reads : ∀ history page current, ReadsData (ch.continuation history page current).result)
    {t t' : ContextTask} {events : List Event} (h : Step s ch t events t') {f : Failure}
    (failed : t'.failure? = some f) : f.isDefinition = false := by
  rw [Task.failure?_eq_some] at failed
  cases h with
  | @opened first =>
    unfold Channel.opened at failed
    split at failed
    next fault =>
      cases failed
      exact Traversal.opening_readsData first f fault
    · cases failed
  | @page t page =>
    unfold Channel.received at failed
    split at failed
    · cases failed
    · cases failed
    next broken =>
      cases failed
      rcases Traversal.receive_broken (by rw [broken]) with asked | ⟨rfl, -⟩
      · exact reads _ _ _ f asked
      · rfl
  | failed answer =>
    cases failed
    exact sound.clients _ _ f answer
  | cancelled => cases failed

theorem ContextTask.sound_of_run (sound : s.Sound) {ch : Channel}
    (reads : ∀ history page current, ReadsData (ch.continuation history page current).result)
    {first : Value × Call} {labels : List (Option (List Event))} {t : ContextTask}
    (run : Steps (Exposed (Step s ch)) (fresh first) labels t) {f : Failure}
    (failed : t.failure? = some f) : f.isDefinition = false := by
  induction run with
  | nil => cases failed
  | snoc _ last ih =>
    cases last with
    | step h => exact h.sound sound reads failed
    | tell => exact ih failed

namespace JobTask

variable {adapter typeName : Value} {p : Plan} {firsts : Except Failure (List (Value × Call))}
  {labels : List (Option (OwnerLabel (List Event)))} {t : JobTask} {d : DefinitionFault}

theorem data_of_raised (sound : s.Sound) {ch : Channel}
    (reads : ∀ history page current, ReadsData (ch.continuation history page current).result)
    {filled : List (Value × Call)} {o : Owner ContextState Traversal.Fetched (List Item)}
    (run : Steps (Exposed (Owner.Step (ContextTask.Step s ch) (Extracts s p typeName)))
      (Owner.start (filled.map ContextTask.fresh)) labels o) {f : Failure}
    (raised : o.ended = some (.raised (.failure f))) : f.isDefinition = false := by
  have inv := Owner.inv_of_run ContextTask.Step.running run
  rcases inv.closing _ raised with ⟨c, given, -, same⟩ | ⟨-, fetched, events, -, closed⟩
  · cases same
    obtain ⟨n, first, t', started, run, failed⟩ := inv.failing given
    rw [List.getElem?_map] at started
    obtain ⟨context, -, rfl⟩ := Option.map_eq_some_iff.1 started
    exact ContextTask.sound_of_run sound reads run (Task.failure?_eq_some.2 failed)
  · obtain ⟨w, -, ending⟩ := closed
    have within := Fetch.finish_within (fun _ h => h) sound.hooks p typeName fetched
    rcases within.ending w with ⟨items, done⟩ | ⟨f, failed, data⟩
    · rw [done] at ending
      cases ending
    · rw [failed] at ending
      cases ending
      exact data

theorem Course.unfilled_of_fault (sound : s.Sound)
    (course : Course s adapter typeName p firsts labels t)
    (raised : t.ended = some (.raised (.failure (.definition d)))) :
    firsts = .error (.definition d) := by
  cases course with
  | fresh => cases raised
  | told quiet told cancelled => cases cancelled _ raised
  | unfilled fault =>
    cases raised
    exact fault
  | owning all run =>
    cases data_of_raised sound (Pagination.next_readsData p.pagination.strategy) run raised

end JobTask

theorem request_fault_precedes_calls (sound : s.Sound) {adapter typeName : Value} {p : Plan}
    {firsts : Except Failure (List (Value × Call))}
    {labels : List (Option (OwnerLabel (List Event)))} {t : JobTask} {d : DefinitionFault}
    (run : RequestRun s adapter typeName p firsts labels t)
    (raised : t.ended = some (.raised (.failure (.definition d)))) : batchCalls labels = [] := by
  have course := JobTask.course_of_run run
  have unfilled := course.unfilled_of_fault sound raised
  refine List.eq_nil_iff_forall_not_mem.2 fun x member => ?_
  obtain ⟨filled, all, -⟩ := course.call member
  cases all.symm.trans unfilled

/-- The calls of a job cannot be filled, and the configuration is to blame. -/
def Unfillable (d : DefinitionFault) (job : Fetch.Job) : Prop :=
  job.begin.firsts = .error (.definition d)

/-- The job has a call to make: its calls can be filled, and the traversal of a context can be
opened. -/
def HasCall (job : Fetch.Job) : Prop :=
  ∃ filled, job.begin.firsts = .ok filled ∧
    ∃ first ∈ filled, ∃ names, Traversal.opening first = .ok names

section Resource

variable {adapter typeName : Value} {jobs : List Fetch.Job}
  {labels : List (Option (OwnerLabel (OwnerLabel (List Event))))}
  {o : Owner JobState (List Item) (List Item)}
  {d : DefinitionFault}

theorem unfillable_of_fault (sound : s.Sound) (run : ResourceRun s adapter typeName jobs labels o)
    (raised : o.ended = some (.raised (.failure (.definition d)))) :
    ∃ job ∈ jobs, Unfillable d job := by
  have inv := Owner.inv_of_run JobTask.Step.running run
  rcases inv.closing _ raised with ⟨c, given, -, same⟩ | ⟨-, _, _, -, -, returned⟩
  · cases same
    obtain ⟨n, t, t', started, run, failed⟩ := inv.failing given
    rw [List.getElem?_map] at started
    obtain ⟨job, found, rfl⟩ := Option.map_eq_some_iff.1 started
    exact ⟨job, List.mem_of_getElem? found,
      (JobTask.course_of_run run).unfilled_of_fault sound failed⟩
  · cases returned

theorem hasCall_of_call (run : ResourceRun s adapter typeName jobs labels o) {x : String × Call}
    (member : x ∈ resourceCalls labels) : ∃ job ∈ jobs, HasCall job := by
  obtain ⟨m, job, found, member⟩ := call_of_run run member
  obtain ⟨t, -, run⟩ := job_of_run run found
  have course := JobTask.course_of_run run
  obtain ⟨filled, all, n, inside, here⟩ := course.call member
  obtain ⟨state, sent⟩ := course.sent all (List.getElem?_eq_getElem inside)
  refine ⟨job, List.mem_of_getElem? found, filled, all, filled[n], List.getElem_mem inside, ?_⟩
  cases state with
  | fresh own =>
    rw [sent.2] at here
    cases here
  | waiting t => exact sent.1

theorem HasCall.exists_path (s : Surroundings σ) (adapter typeName : Value) {job : Fetch.Job}
    (hasCall : HasCall job) :
    ∃ sent t,
      Path (JobTask.Step s adapter typeName) (OwnerLabel.events id) (JobTask.ofJob job) sent t ∧
      t.ended = none ∧ sent ≠ [] := by
  obtain ⟨filled, all, first, member, names, opening⟩ := hasCall
  obtain ⟨n, found⟩ := List.getElem?_of_mem member
  have fresh : (Batch.start (filled.map ContextTask.fresh)).tasks[n]? =
      some (ContextTask.fresh first) := by simp [Batch.start, found]
  unfold JobTask.ofJob
  rw [all]
  have begun : Path (JobTask.Step s adapter typeName) (OwnerLabel.events id)
      (JobTask.fresh job.plan (.ok filled)) [] _ := .single .begun rfl
  refine ⟨_, _, begun.trans (.single (.owning (.task fresh .opened)) rfl), rfl, ?_⟩
  simp [Channel.opened, opening]

theorem exists_call_before_fault (s : Surroundings σ) (adapter typeName : Value)
    {broken ready : Fetch.Job} (unfillable : Unfillable d broken) (hasCall : HasCall ready)
    (brokenIn : broken ∈ jobs) (readyIn : ready ∈ jobs) :
    ∃ labels o, ResourceRun s adapter typeName jobs labels o ∧
      o.ended = some (.raised (.failure (.definition d))) ∧ resourceCalls labels ≠ [] := by
  obtain ⟨m, readyAt⟩ := List.getElem?_of_mem readyIn
  obtain ⟨k, brokenAt⟩ := List.getElem?_of_mem brokenIn
  have apart : m ≠ k := by
    rintro rfl
    obtain rfl : ready = broken := Option.some.inj (readyAt.symm.trans brokenAt)
    obtain ⟨filled, all, -⟩ := hasCall
    cases all.symm.trans unfillable
  obtain ⟨sent, t, own, running, called⟩ := hasCall.exists_path s adapter typeName
  let close : List (List Item) → List Event → TaskEnd (List Item) → Prop :=
    fun items events e => events = [] ∧ e = .returned items.flatten
  have start : (Batch.start (jobs.map JobTask.ofJob)).tasks[m]? = some (JobTask.ofJob ready) := by
    simp [Batch.start, readyAt]
  have path := Owner.lift close JobTask.Step.running false start rfl own
  rw [Task.failure?_of_running running] at path
  -- the other request shows its mistake, and is the first one to do so
  have next : ((jobs.map JobTask.ofJob).set m t)[k]? =
      some ⟨⟨broken.plan, .error (.definition d), none⟩, false, none⟩ := by
    have found : (jobs.map JobTask.ofJob)[k]? = some (JobTask.ofJob broken) := by simp [brokenAt]
    rw [List.getElem?_set_ne apart, found, JobTask.ofJob, unfillable]
    rfl
  have shown := path.snoc (.task next .unfilled) rfl
  obtain ⟨o, raising, ended⟩ := Owner.raises_first close JobTask.Step.running shown rfl rfl
    fun u _ => JobTask.ends_of_told s adapter typeName u
  obtain ⟨labels, run, -, same⟩ := raising.exposed
  refine ⟨labels, o, run, ended, ?_⟩
  rw [resourceCalls, same]
  exact called

end Resource

/-- How a fetch of all requests of a resource type can go: what it has sent so far, and how it has
ended. It ends at once if a request cannot be bound. -/
inductive ResourceFetch (s : Surroundings σ) (definitions : Registry.Definitions) (typeName : String)
    (pool : Value) : List (String × Call) → Option (TaskEnd (List Item)) → Prop where
  | unbound {f}
    (fault : (Fetch.jobs definitions pool
      ((definitions.requests.query typeName).map (·.value))).result = .error f) :
    ResourceFetch s definitions typeName pool [] (some (.raised (.failure f)))
  | bound {jobs labels o}
    (bound : (Fetch.jobs definitions pool
      ((definitions.requests.query typeName).map (·.value))).result = .ok jobs)
    (run : ResourceRun s definitions.adapterName (.str typeName) jobs labels o) :
    ResourceFetch s definitions typeName pool (resourceCalls labels) o.ended

/-- Mistakes in the configuration come before all calls, in whatever order the steps fall, exactly
if no request whose calls cannot be filled stands beside one that has a call to make. -/
theorem fault_precedes_calls_iff (sound : s.Sound) (definitions : Registry.Definitions)
    (typeName : String) (pool : Value) :
    (∀ sent d, ResourceFetch s definitions typeName pool sent
        (some (.raised (.failure (.definition d)))) → sent = []) ↔
      ∀ jobs, (Fetch.jobs definitions pool
          ((definitions.requests.query typeName).map (·.value))).result = .ok jobs →
        ¬ ((∃ job ∈ jobs, ∃ d, Unfillable d job) ∧ ∃ job ∈ jobs, HasCall job) := by
  constructor
  · rintro early jobs bound ⟨⟨broken, brokenIn, d, unfillable⟩, ready, readyIn, hasCall⟩
    obtain ⟨labels, o, run, raised, sent⟩ := exists_call_before_fault s definitions.adapterName
      (.str typeName) unfillable hasCall brokenIn readyIn
    exact sent (early _ d (raised ▸ .bound bound run))
  · intro apart sent d fetched
    generalize raised : some (TaskEnd.raised (Cause.failure (Failure.definition d))) = e at fetched
    cases fetched with
    | unbound fault => rfl
    | @bound jobs labels o bound run =>
      refine List.eq_nil_iff_forall_not_mem.2 fun x member => ?_
      obtain ⟨broken, brokenIn, unfillable⟩ := unfillable_of_fault sound run raised.symm
      exact apart jobs bound ⟨⟨broken, brokenIn, d, unfillable⟩, hasCall_of_call run member⟩

def pagesOnly : Surroundings Unit :=
  ⟨fun _ _ reply => ∃ page, reply = .page page, fun _ _ w => (.error (.collaborator "no hook"), w)⟩

theorem pagesOnly_sound : pagesOnly.Sound where
  clients client call f h := by
    obtain ⟨page, same⟩ := h
    cases same
  hooks hook c w f h := by
    cases h
    rfl

def partConfig : Value :=
  .obj [("adapter_name", .str "shop"),
    ("clients", .obj [("options", .obj [("main", .obj [("endpoints", .obj [("customizations",
      .obj [("/a", .obj [("get", .obj [("readonly", .bool true)])]),
        ("/b/{x.y}", .obj [("get", .obj [("readonly", .bool true)])])])])])])]),
    ("requests", .obj [("customizations",
      .obj [("T", .arr [.obj [("endpoint", .obj [("path", .str "/a")])],
        .obj [("endpoint", .obj [("path", .str "/b/{x.y}")])]]),
        ("U", .arr [.obj [("endpoint", .obj [("path", .str "/b/{x.y}")])]])])])]

set_option maxRecDepth 10000 in
theorem partPlan_unfillable :
    Unfillable (.unresolved ["x.y"] [.str "x"]) ⟨partPlan, [[("x", .int 1)]]⟩ := by
  unfold Unfillable
  cbv

theorem plainPlan_hasCall : HasCall ⟨plainPlan, [[]]⟩ := by
  have filled : (Fetch.Job.begin ⟨plainPlan, [[]]⟩).firsts = .ok [(.obj [], plainPlan.call)] := by
    cbv
  have opening : Traversal.opening (.obj [], plainPlan.call) = .ok [] := by cbv
  exact ⟨_, filled, _, List.mem_singleton_self _, [], opening⟩

set_option maxRecDepth 10000 in
/-- The value of `x` has no part `y`, which shows after the other request has made its call. -/
theorem call_before_unresolved_argument : ∃ definitions sent,
    Registry.Definitions.read ["main"] partConfig = .ok definitions ∧
    ResourceFetch pagesOnly definitions "T" (.obj [("x", .arr [.int 1])]) sent
      (some (.raised (.failure (.definition (.unresolved ["x.y"] [.str "x"]))))) ∧
    sent ≠ [] := by
  have read : Registry.Definitions.read ["main"] partConfig = .ok partDefinitions := by cbv
  have bound : (Fetch.jobs partDefinitions (.obj [("x", .arr [.int 1])])
      ((partDefinitions.requests.query "T").map (·.value))).result =
      .ok [⟨plainPlan, [[]]⟩, ⟨partPlan, [[("x", .int 1)]]⟩] := by cbv
  have brokenIn : (⟨partPlan, [[("x", .int 1)]]⟩ : Fetch.Job) ∈
      [⟨plainPlan, [[]]⟩, ⟨partPlan, [[("x", .int 1)]]⟩] := .tail _ (.head _)
  obtain ⟨labels, o, run, raised, sent⟩ := exists_call_before_fault pagesOnly (.str "shop")
    (.str "T") partPlan_unfillable plainPlan_hasCall brokenIn (.head _)
  exact ⟨_, _, read, raised ▸ .bound bound run, sent⟩

set_option maxRecDepth 10000 in
theorem lone_fault_precedes_calls : pagesOnly.Sound ∧
    ∀ sent d, ResourceFetch pagesOnly partDefinitions "U" (.obj [("x", .arr [.int 1])]) sent
      (some (.raised (.failure (.definition d)))) → sent = [] := by
  have bound : (Fetch.jobs partDefinitions (.obj [("x", .arr [.int 1])])
      ((partDefinitions.requests.query "U").map (·.value))).result =
      .ok [⟨partPlan, [[("x", .int 1)]]⟩] := by cbv
  refine ⟨pagesOnly_sound, (fault_precedes_calls_iff pagesOnly_sound _ _ _).2 ?_⟩
  rintro jobs same ⟨-, job, member, filled, all, -⟩
  cases bound.symm.trans same
  obtain rfl := List.mem_singleton.1 member
  cases all.symm.trans partPlan_unfillable

end Schedule

end Harvest
