import Mathlib
import Harvest.Proofs.Plan
import Harvest.Proofs.Registry
import Harvest.Proofs.Schedule.Calls
import Harvest.Proofs.Substitution

namespace Harvest.Schedule

variable {σ : Type}

/-- What the calls that are sent for one context of a request are confined to. -/
structure Confined (available : List String) (definitions : Registry.Definitions)
    (target : Endpoint.Target) (context : Value) (sent : List (String × Call)) : Prop where
  client : ∀ x ∈ sent, x.1 = Plan.clientAsked definitions target ∧ x.1 ∈ available
  readonly : ∀ x ∈ sent, ∃ entry,
    definitions.queryEndpoint x.1 target.path target.method = some entry ∧
      entry.value.readonly = true
  method : ∀ x ∈ sent, x.2.method = target.method
  path : ∀ x, sent.head? = some x →
    ∃ v, Template.fillString context target.path = .ok ⟨v, []⟩ ∧ x.2.path = v.text
  later : ∀ first, sent.head? = some first → ∀ x ∈ sent, first.2.Continues x.2

theorem ContextTask.Sent.confined {available : List String} {definitions : Registry.Definitions}
    {request : Request} {p : Plan} {context : Value} {call : Call} {sent : List (String × Call)}
    {state : ContextState} (bound : Plan.Bound definitions request p)
    (present : ∀ client ∈ definitions.clientNames, client ∈ available)
    (filled : p.call.substitute context = .ok call)
    (h : Sent p.channel (context, call) sent state) :
    Confined available definitions request.target.value context sent := by
  obtain ⟨method, v, path, text⟩ := Call.substitute_eq_ok filled
  obtain ⟨entry, registered, readonly⟩ := bound.registered
  have inClients := Registry.Definitions.mem_clientNames_of_query registered
  have firstMethod : call.method = request.target.value.method := method.trans bound.method
  cases state with
  | fresh own =>
    obtain ⟨-, rfl⟩ := h
    constructor <;> simp
  | waiting t =>
    obtain ⟨-, origin, rfl⟩ := h
    obtain ⟨later, sent, all⟩ := origin.calls
    have continues : ∀ c ∈ t.calls, call.Continues c := by
      intro c member
      rw [sent] at member
      rcases List.mem_cons.1 member with same | member
      · exact same ▸ .refl call
      · exact all c member
    have head : ∀ x, (t.calls.map (p.clientName, ·)).head? = some x → x = (p.clientName, call) := by
      intro x h
      simpa [sent, eq_comm] using h
    refine ⟨?_, ?_, ?_, ?_, ?_⟩
    · intro x member
      obtain ⟨c, -, rfl⟩ := List.mem_map.1 member
      exact ⟨bound.client, present _ inClients⟩
    · intro x member
      obtain ⟨c, -, rfl⟩ := List.mem_map.1 member
      exact ⟨entry, registered, readonly⟩
    · intro x member
      obtain ⟨c, inside, rfl⟩ := List.mem_map.1 member
      exact (continues c inside).method.trans firstMethod
    · intro x h
      obtain rfl := head x h
      exact ⟨v, by rw [← bound.path]; exact path, text⟩
    · intro first h x member
      obtain rfl := head first h
      obtain ⟨c, inside, rfl⟩ := List.mem_map.1 member
      exact continues c inside

/-- The calls of a request are those of its contexts, and those of every context are confined. -/
structure ConfinedRequest (available : List String) (definitions : Registry.Definitions)
    (target : Endpoint.Target) (contexts : List Value)
    (labels : List (Option (OwnerLabel (List Event)))) : Prop where
  placed : ∀ x ∈ batchCalls labels, ∃ n context,
    contexts[n]? = some context ∧ x ∈ calls id (labelsAt n labels)
  confined : ∀ n context, contexts[n]? = some context →
    Confined available definitions target context (calls id (labelsAt n labels))

theorem JobTask.Course.confined {available : List String} {definitions : Registry.Definitions}
    {request : Request} {p : Plan} {s : Surroundings σ} {adapter typeName : Value}
    {contexts : List Value} {labels : List (Option (OwnerLabel (List Event)))} {t : JobTask}
    (course : Course s adapter typeName p (Traversal.firstCalls p.call contexts) labels t)
    (bound : Plan.Bound definitions request p)
    (present : ∀ client ∈ definitions.clientNames, client ∈ available) :
    ConfinedRequest available definitions request.target.value contexts labels where
  placed x member := by
    obtain ⟨filled, all, n, inside, here⟩ := course.call member
    have same := (Traversal.firstCalls_eq_ok.1 all).length_eq
    have inContexts : n < contexts.length := same ▸ inside
    exact ⟨n, contexts[n], List.getElem?_eq_getElem inContexts, here⟩
  confined n context found := by
    cases all : Traversal.firstCalls p.call contexts with
    | error f =>
      rw [course.labelsAt_of_error all n]
      constructor <;> simp
    | ok filled =>
      obtain ⟨⟨_, call⟩, first, rfl, substituted⟩ :=
        getElem?_of_forall₂ (Traversal.firstCalls_eq_ok.1 all) found
      obtain ⟨state, sent⟩ := course.sent all first
      exact sent.confined bound present substituted

/-- Every call of a fetch belongs to a context of a request, and is confined to what the request and
the context say, whatever clients answer and in whatever order the steps fall. -/
theorem calls_confined {available : List String} {config : Value}
    {definitions : Registry.Definitions}
    (read : Registry.Definitions.read available config = .ok definitions) (s : Surroundings σ) :
    (∀ request contexts typeName p labels t,
      (Plan.make definitions request).result = .ok p →
      RequestRun s definitions.adapterName typeName p (Traversal.firstCalls p.call contexts)
        labels t →
      ConfinedRequest available definitions request.target.value contexts labels) ∧
    ∀ typeName pool jobs labels o,
      (Fetch.jobs definitions pool ((definitions.requests.query typeName).map (·.value))).result =
        .ok jobs →
      ResourceRun s definitions.adapterName (.str typeName) jobs labels o →
      (∀ x ∈ resourceCalls labels, ∃ n request job,
        (definitions.requests.query typeName)[n]? = some request ∧ jobs[n]? = some job ∧
        x ∈ batchCalls (labelsAt n labels)) ∧
      ∀ n request job, (definitions.requests.query typeName)[n]? = some request →
        jobs[n]? = some job →
        ConfinedRequest available definitions request.value.target.value
          (job.contexts.map .obj) (labelsAt n labels) := by
  have present : ∀ client ∈ definitions.clientNames, client ∈ available :=
    fun _ => Registry.Definitions.available_of_read read
  refine ⟨?_, ?_⟩
  · intro request contexts typeName p labels t made run
    exact (JobTask.course_of_run run).confined (Plan.bound_of_make made) present
  · intro typeName pool jobs labels o bound run
    have places := Fetch.jobs_eq_ok bound
    refine ⟨?_, ?_⟩
    · intro x member
      obtain ⟨n, job, found, here⟩ := call_of_run run member
      obtain ⟨request, asked, -⟩ := getElem?_of_forall₂ places.flip found
      rw [List.getElem?_map] at asked
      obtain ⟨request, asked, -⟩ := Option.map_eq_some_iff.1 asked
      exact ⟨n, request, job, asked, found, here⟩
    · intro n request job asked found
      have mapped : ((definitions.requests.query typeName).map (·.value))[n]? =
          some request.value := by simp [asked]
      obtain ⟨job', here, made, -⟩ := getElem?_of_forall₂ places mapped
      obtain rfl : job = job' := Option.some.inj (found.symm.trans here)
      obtain ⟨t, -, course⟩ := job_of_run run found
      exact (JobTask.course_of_run course).confined (Plan.bound_of_make made) present

def sideConfig : Value :=
  .obj [("adapter_name", .str "shop"),
    ("clients", .obj [("default", .str "main"), ("options", .obj [
      ("main", .obj [("endpoints", .obj [])]),
      ("side", .obj [("endpoints", .obj [("customizations",
        .obj [("/a", .obj [("get", .obj [("readonly", .bool true)])])])])])])]),
    ("requests", .obj [("customizations", .obj [("T",
      .arr [.obj [("endpoint", .obj [("path", .str "/a"), ("client", .str "side")])]])])])]

def sidePlan : Plan where
  request := ⟨⟨⟨⟨none, none, .null, none, none⟩, "/a", .get, some "side"⟩, .endpointTarget, [],
    ["path", "client"]⟩, Transformation.plain, []⟩
  endpoint := ⟨⟨⟨none, none, .null, none, some "none"⟩, "/a", .get, some "side"⟩, true⟩
  clientName := "side"
  pagination := .single
  call := ⟨"/a", .get, [], [], .null⟩

def sideDefinitions : Registry.Definitions where
  adapterName := .str "shop"
  defaultClient := "main"
  clients := [("main", ⟨[]⟩), ("side", ⟨[(("/a", .get),
    ⟨⟨⟨none, none, .null, none, none⟩, true⟩, .endpointEntry, [], ["readonly"]⟩)]⟩)]
  requests := ⟨[("T", [⟨sidePlan.request, .request, [], ["endpoint"]⟩])]⟩
  paginations := .empty

theorem side_run : ∃ labels t,
    RequestRun anyAnswers (.str "shop") (.str "T") sidePlan
      (Traversal.firstCalls sidePlan.call [.obj []]) labels t ∧
    batchCalls labels = [("side", sidePlan.call)] := by
  have filled : Traversal.firstCalls sidePlan.call [.obj []] = .ok [(.obj [], sidePlan.call)] := by
    cbv
  have opening : Traversal.opening (.obj [], sidePlan.call) = .ok [] := by cbv
  rw [filled]
  refine ⟨_, _, Steps.cons (.step .begun)
    (.single (.step (.owning (.task (n := 0) rfl ContextTask.Step.opened)))), ?_⟩
  simp only [Channel.opened, opening]
  rfl

theorem named_client_confined : ∃ labels t,
    RequestRun anyAnswers (.str "shop") (.str "T") sidePlan
      (Traversal.firstCalls sidePlan.call [.obj []]) labels t ∧
    batchCalls labels = [("side", sidePlan.call)] ∧
    ConfinedRequest ["main", "side"] sideDefinitions sidePlan.request.target.value [.obj []]
      labels := by
  have read : Registry.Definitions.read ["main", "side"] sideConfig = .ok sideDefinitions := by cbv
  have made : (Plan.make sideDefinitions sidePlan.request).result = .ok sidePlan := by cbv
  obtain ⟨labels, t, run, sent⟩ := side_run
  exact ⟨labels, t, run, sent, (calls_confined read anyAnswers).1 _ _ _ _ _ _ made run⟩

end Harvest.Schedule
