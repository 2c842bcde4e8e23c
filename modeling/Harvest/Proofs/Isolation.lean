import Mathlib
import Harvest.Proofs.Plan
import Harvest.Proofs.Registry
import Harvest.Proofs.Schedule.Alone
import Harvest.Proofs.Schedule.Progress

namespace Harvest.Schedule

variable {σ : Type} {s : Surroundings σ} {serve : String → Call → Page}

section

variable (serves : s.Serves serve) (w : σ)

include serves

theorem traversal_returns_alone (ch : Channel) {call : Call} {contexts : List Value}
    {firsts : List (Value × Call)} {labels : List (Option (OwnerLabel (List Event)))}
    {o : Owner ContextState Traversal.Fetched (List Traversal.Fetched)}
    {e : TaskEnd (List Traversal.Fetched)}
    (filled : Traversal.firstCalls call contexts = .ok firsts)
    (calm : ∀ context ∈ contexts, Run.NeverFails
      (Traversal.contextAlone serve ch.client ch.endpoint ch.continuation call context) w)
    (run : TraversalRun s ch firsts labels o) (untold : none ∉ labels) (ended : o.ended = some e) :
    ∃ entries, e = .returned entries ∧ List.Forall₂ (fun context entry => Run.Settles (σ := σ)
      (Traversal.contextAlone serve ch.client ch.endpoint ch.continuation call context)
      (.done [entry])) contexts entries := by
  have inv := Owner.inv_of_run ContextTask.Step.running run
  have places := Traversal.firstCalls_eq_ok.1 filled
  rcases inv.untold untold ended with
    ⟨n, t, t', f, started, run, failed⟩ | ⟨entries, events, returned, -, rfl⟩
  · rw [List.getElem?_map] at started
    obtain ⟨first, found, rfl⟩ := Option.map_eq_some_iff.1 started
    obtain ⟨context, here, same, substituted⟩ := getElem?_of_forall₂ places.flip found
    have lone := Traversal.filled_alone same substituted
    have fails := Traversal.fetchAll_fails lone (List.mem_singleton_self _)
      (ContextTask.settles_of_failed serves run failed)
    exact absurd (calm context (List.mem_of_getElem? here)) (fails.not_neverFails w)
  · refine ⟨entries, rfl, ?_⟩
    refine forall₂_through ?_ places (List.forall₂_map_left_iff.1 returned)
    rintro context first entry ⟨same, substituted⟩ returns
    have settles := ContextTask.settles_of_returns serves returns
    exact Traversal.fetchAll_settles (Traversal.filled_alone same substituted) (.cons settles .nil)

theorem request_returns_alone {definitions : Registry.Definitions} {pool adapter : Value}
    {typeName : String} {request : Request} {job : Fetch.Job}
    {labels : List (Option (OwnerLabel (List Event)))} {t : JobTask} {e : TaskEnd (List Item)}
    (made : (Plan.make definitions request).result = .ok job.plan)
    (combined : (Pool.contexts pool (job.plan.roots.map .named)).result = .ok job.contexts)
    (stateless : Extraction.Stateless s.adjust request)
    (calm : Run.NeverFails
      (Fetch.requestAlone definitions serve s.adjust pool typeName request) w)
    (run : RequestRun s adapter (.str typeName) job.plan job.begin.firsts labels t)
    (untold : none ∉ labels) (ended : t.ended = some e) :
    ∃ items, e = .returned items ∧ Run.Settles
      (Fetch.requestAlone definitions serve s.adjust pool typeName request) (.done items) := by
  have own := (Plan.bound_of_make made).asked
  have stateless : Extraction.Stateless s.adjust job.plan.request := own ▸ stateless
  cases e with
  | returned items =>
    exact ⟨items, rfl,
      JobTask.settles_of_returns made combined serves stateless ⟨labels, t, run, ended⟩⟩
  | raised c =>
    exfalso
    cases c with
    | failure f =>
      exact (JobTask.fails_of_failed made combined serves stateless run ended).not_neverFails w calm
    | cancellation => exact untold (JobTask.told_of_cancelled run ended)

theorem resource_returns_alone {definitions : Registry.Definitions} {pool : Value}
    {typeName : String} {requests : List Request} {jobs : List Fetch.Job}
    {labels : List (Option (OwnerLabel (OwnerLabel (List Event))))}
    {o : Owner JobState (List Item) (List Item)} {e : TaskEnd (List Item)}
    (bound : (Fetch.jobs definitions pool requests).result = .ok jobs)
    (calm : ∀ request ∈ requests, Extraction.Stateless s.adjust request ∧ Run.NeverFails
      (Fetch.requestAlone definitions serve s.adjust pool typeName request) w)
    (run : ResourceRun s definitions.adapterName (.str typeName) jobs labels o)
    (untold : none ∉ labels) (ended : o.ended = some e) :
    ∃ results, e = .returned results.flatten ∧ List.Forall₂ (fun request items => Run.Settles
      (Fetch.requestAlone definitions serve s.adjust pool typeName request) (.done items))
      requests results := by
  have inv := Owner.inv_of_run JobTask.Step.running run
  have places := Fetch.jobs_eq_ok bound
  have stateless : ∀ request ∈ requests, ∀ job : Fetch.Job,
      (Plan.make definitions request).result = .ok job.plan →
      Extraction.Stateless s.adjust job.plan.request := by
    intro request member job made
    exact (Plan.bound_of_make made).asked ▸ (calm request member).1
  rcases inv.untold untold ended with
    ⟨n, t, t', f, started, run, failed⟩ | ⟨results, events, returned, -, rfl⟩
  · rw [List.getElem?_map] at started
    obtain ⟨job, found, rfl⟩ := Option.map_eq_some_iff.1 started
    obtain ⟨request, here, made, combined⟩ := getElem?_of_forall₂ places.flip found
    have member := List.mem_of_getElem? here
    have fails := JobTask.fails_of_failed made combined serves (stateless request member job made)
      run failed
    exact absurd (calm request member).2 (fails.not_neverFails w)
  · refine ⟨results, rfl, ?_⟩
    have inside := (List.forall₂_and_left (p := (· ∈ requests)) _ _).2 ⟨fun _ member => member, places⟩
    refine forall₂_through ?_ inside (List.forall₂_map_left_iff.1 returned)
    rintro request job items ⟨member, made, combined⟩ returns
    exact JobTask.settles_of_returns made combined serves (stateless request member job made) returns

end

/-- Nothing that a fetch returns depends on the order in which the steps of its tasks fall: the
traversal of contexts returns what each context has alone, in the order of contexts, and the fetch
of a resource type what each request has alone, in the order of the registry. -/
theorem interleaving_irrelevant (serves : s.Serves serve) (w : σ) :
    (∀ client endpoint (strategy : Pagination.Strategy) call contexts firsts labels o e,
      Traversal.firstCalls call contexts = .ok firsts →
      (∀ context ∈ contexts, Run.NeverFails
        (Traversal.contextAlone serve client endpoint strategy.next call context) w) →
      TraversalRun s ⟨client, endpoint, strategy.next⟩ firsts labels o → none ∉ labels →
      o.ended = some e →
        ∃ entries, e = .returned entries ∧ List.Forall₂ (fun context entry => Run.Settles (σ := σ)
          (Traversal.contextAlone serve client endpoint strategy.next call context)
          (.done [entry])) contexts entries) ∧
    ∀ (definitions : Registry.Definitions) typeName pool jobs labels o e,
      (Fetch.jobs definitions pool
        ((definitions.requests.query typeName).map (·.value))).result = .ok jobs →
      (∀ request ∈ (definitions.requests.query typeName).map (·.value),
        Extraction.Stateless s.adjust request ∧ Run.NeverFails
          (Fetch.requestAlone definitions serve s.adjust pool typeName request) w) →
      ResourceRun s definitions.adapterName (.str typeName) jobs labels o → none ∉ labels →
      o.ended = some e →
        ∃ results, e = .returned results.flatten ∧ List.Forall₂ (fun request items => Run.Settles
          (Fetch.requestAlone definitions serve s.adjust pool typeName request) (.done items))
          ((definitions.requests.query typeName).map (·.value)) results := by
  refine ⟨?_, ?_⟩
  · intro client endpoint strategy call contexts firsts labels o e filled calm run untold ended
    exact traversal_returns_alone serves w ⟨client, endpoint, strategy.next⟩ filled calm run untold
      ended
  · intro definitions typeName pool jobs labels o e bound calm run untold ended
    exact resource_returns_alone serves w bound calm run untold ended

def echoed (_ : String) (call : Call) : Page :=
  ⟨.arr [.obj [("path", .str call.path)]], 200, []⟩

def echoing : Surroundings Unit :=
  ⟨fun client call reply => reply = .page (echoed client call), anyAnswers.adjust⟩

def singleChannel : Channel :=
  ⟨"main", .null, Pagination.Strategy.single.next⟩

def xCall (path : String) : Call :=
  ⟨path, .get, [], [], .null⟩

def xContexts : List Value :=
  [.obj [("x", .int 1)], .obj [("x", .int 2)]]

def xFirsts : List (Value × Call) :=
  [(.obj [("x", .int 1)], xCall "/b/1"), (.obj [("x", .int 2)], xCall "/b/2")]

def partPool : Value :=
  .obj [("x", .arr [.obj [("y", .int 1)]])]

def partJobs : List Fetch.Job :=
  [⟨plainPlan, [[]]⟩, ⟨partPlan, [[("x", .obj [("y", .int 1)])]]⟩]

theorem opening_xCall (n : Int) (path : String) :
    Traversal.opening (.obj [("x", .int n)], xCall path) = .ok [.str "x"] := by
  cbv

theorem echoing_traversal : ∃ labels o,
    Steps (Owner.Step (ContextTask.Step echoing singleChannel) fun fetched events e =>
      events = [] ∧ e = TaskEnd.returned fetched)
      (Owner.start (xFirsts.map ContextTask.fresh)) labels o ∧ o.ended.isSome := by
  refine Steps.exists_cons (.task (n := 0) rfl .opened) ?_
  refine Steps.exists_cons (.task (n := 1) rfl .opened) ?_
  simp only [Channel.opened, opening_xCall]
  refine Steps.exists_cons (.task (n := 1) rfl (.page rfl)) ?_
  refine Steps.exists_cons (.task (n := 0) rfl (.page rfl)) ?_
  refine Steps.exists_cons (.closed rfl rfl ⟨rfl, rfl⟩) ?_
  exact ⟨[], _, .nil, rfl⟩

set_option maxRecDepth 10000 in
theorem echoing_resource : ∃ labels o,
    Steps (ResourceStep echoing (.str "shop") (.str "T")) (Owner.start (partJobs.map JobTask.ofJob))
      labels o ∧ o.ended.isSome := by
  have plain : (Fetch.Job.begin ⟨plainPlan, [[]]⟩).firsts = .ok [(.obj [], plainPlan.call)] := by
    cbv
  have part : (Fetch.Job.begin ⟨partPlan, [[("x", .obj [("y", .int 1)])]]⟩).firsts =
      .ok [(.obj [("x", .obj [("y", .int 1)])], xCall "/b/1")] := by cbv
  have plainOpened : Traversal.opening (.obj [], plainPlan.call) = .ok [] := by cbv
  have partOpened : Traversal.opening (.obj [("x", .obj [("y", .int 1)])], xCall "/b/1") =
      .ok [.str "x"] := by cbv
  simp only [partJobs, List.map_cons, List.map_nil, JobTask.ofJob, plain, part]
  refine Steps.exists_cons (.task (n := 0) rfl .begun) ?_
  refine Steps.exists_cons (.task (n := 1) rfl .begun) ?_
  refine Steps.exists_cons (.task (n := 0) rfl (.owning (.task (n := 0) rfl .opened))) ?_
  refine Steps.exists_cons (.task (n := 1) rfl (.owning (.task (n := 0) rfl .opened))) ?_
  simp only [Channel.opened, plainOpened, partOpened]
  refine Steps.exists_cons (.task (n := 1) rfl (.owning (.task (n := 0) rfl (.page rfl)))) ?_
  refine Steps.exists_cons (.task (n := 1) rfl (.owning (.closed rfl rfl ⟨(), rfl, by cbv⟩))) ?_
  refine Steps.exists_cons (.task (n := 0) rfl (.owning (.task (n := 0) rfl (.page rfl)))) ?_
  refine Steps.exists_cons (.task (n := 0) rfl (.owning (.closed rfl rfl ⟨(), rfl, by cbv⟩))) ?_
  refine Steps.exists_cons (.closed rfl rfl ⟨rfl, rfl⟩) ?_
  exact ⟨[], _, .nil, rfl⟩

set_option maxRecDepth 10000 in
theorem echoing_neverFails {context : Value} (member : context ∈ xContexts) :
    Run.NeverFails (Traversal.contextAlone echoed "main" .null Pagination.Strategy.single.next
      (xCall "/b/{x}") context) () := by
  have calm : ∀ history page current f,
      (Pagination.Strategy.single.next history page current).result ≠ .error f := by
    rintro history page current f ⟨⟩
  have writes : ∀ history page current next,
      (Pagination.Strategy.single.next history page current).result = .ok (some next) →
        next.isWritable = true := by
    rintro history page current next ⟨⟩
  simp only [xContexts, List.mem_cons, List.not_mem_nil, or_false] at member
  rcases member with rfl | rfl
  · have filled : (xCall "/b/{x}").substitute (.obj [("x", .int 1)]) = .ok (xCall "/b/1") := by cbv
    exact Traversal.contextAlone_neverFails calm writes echoed filled (opening_xCall 1 _) ()
  · have filled : (xCall "/b/{x}").substitute (.obj [("x", .int 2)]) = .ok (xCall "/b/2") := by cbv
    exact Traversal.contextAlone_neverFails calm writes echoed filled (opening_xCall 2 _) ()

set_option maxRecDepth 10000 in
theorem part_neverFails {request : Request}
    (member : request ∈ [plainPlan.request, partPlan.request]) :
    Extraction.Stateless echoing.adjust request ∧ Run.NeverFails
      (Fetch.requestAlone partDefinitions echoed echoing.adjust partPool "T" request) () := by
  simp only [List.mem_cons, List.not_mem_nil, or_false] at member
  refine ⟨?_, ?_⟩
  · rcases member with rfl | rfl <;> rintro hook ⟨⟩
  · rcases member with rfl | rfl <;> intro limit f <;> cases limit <;> cbv <;> simp

set_option maxRecDepth 10000 in
theorem second_page_first : echoing.Serves echoed ∧
    (∃ labels o entries, TraversalRun echoing singleChannel xFirsts labels o ∧
      o.ended = some (.returned entries) ∧ List.Forall₂ (fun context entry => Run.Settles (σ := Unit)
        (Traversal.contextAlone echoed "main" .null Pagination.Strategy.single.next
          (xCall "/b/{x}") context) (.done [entry])) xContexts entries) ∧
    ∃ labels o results, ResourceRun echoing (.str "shop") (.str "T") partJobs labels o ∧
      o.ended = some (.returned results.flatten) ∧ List.Forall₂ (fun request items => Run.Settles
        (Fetch.requestAlone partDefinitions echoed echoing.adjust partPool "T" request)
        (.done items)) [plainPlan.request, partPlan.request] results := by
  have serves : echoing.Serves echoed := fun client call reply same => same
  have filled : Traversal.firstCalls (xCall "/b/{x}") xContexts = .ok xFirsts := by cbv
  have bound : (Fetch.jobs partDefinitions partPool
      ((partDefinitions.requests.query "T").map (·.value))).result = .ok partJobs := by cbv
  have irrelevant := interleaving_irrelevant serves ()
  refine ⟨serves, ?_, ?_⟩
  · obtain ⟨labels, o, run, finished⟩ := echoing_traversal
    obtain ⟨e, ended⟩ := Option.isSome_iff_exists.1 finished
    obtain ⟨entries, rfl, alone⟩ := irrelevant.1 "main" .null .single _ _ _ _ _ _ filled
      (fun _ => echoing_neverFails) run.exposed (by simp) ended
    exact ⟨_, o, entries, run.exposed, ended, alone⟩
  · obtain ⟨labels, o, run, finished⟩ := echoing_resource
    obtain ⟨e, ended⟩ := Option.isSome_iff_exists.1 finished
    obtain ⟨results, rfl, alone⟩ := irrelevant.2 partDefinitions "T" partPool _ _ _ _ bound
      (fun _ => part_neverFails) run.exposed (by simp) ended
    exact ⟨_, o, results, run.exposed, ended, alone⟩

end Harvest.Schedule
