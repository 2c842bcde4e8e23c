import Harvest.Proofs.EarlyFaults
import Harvest.Proofs.Schedule.InOrder
import Harvest.Proofs.Substitution
import Harvest.Proofs.Template.Filling

namespace Harvest

namespace Endpoint

/-- What all parts of an endpoint in which placeholders may stand come to. A body that is left out
is none of them. -/
def Resolved.gathered (r : Resolved) (collect : Value → List String) : List String :=
  collect (.str r.path) ++ collect (.obj (r.queryArgs.getD [])) ++
    collect (.obj (r.headers.getD [])) ++ if r.omitBody = some true then [] else collect r.body

/-- The names of the placeholders of an endpoint in the order of discovery. -/
def Resolved.placeholders (r : Resolved) : List String :=
  (r.gathered Template.names).eraseDups

def Resolved.inserted (r : Resolved) : List String :=
  r.gathered Template.inserted

/-- The placeholders that a context leaves without a value. -/
def Resolved.missing (r : Resolved) (context : Value) : List String :=
  r.placeholders.filter (Template.absent context)

/-- Everything that becomes a text can be written. A path becomes a text even if it is a single
placeholder. -/
def Resolved.Worded (r : Resolved) (context : Value) : Prop :=
  Template.Worded context (Template.names (.str r.path) ++ r.inserted)

theorem Resolved.placeholders_call (r : Resolved) : r.call.placeholders = r.placeholders := by
  unfold Call.placeholders Template.placeholders placeholders gathered Call.template Resolved.call
  split <;> simp [Template.names, Template.namesOfItems]

theorem Resolved.inserted_call (r : Resolved) :
    Template.inserted r.call.template = r.inserted := by
  unfold inserted gathered Call.template Resolved.call
  split <;> simp [Template.inserted, Template.insertedInItems]

end Endpoint

namespace Template

variable {context v : Value} {s : String}

theorem isWritable_of_filled (filled : fillString context s = .ok ⟨v, []⟩)
    (worded : Worded context (inserted (.str s))) :
    v.isWritable = true ↔ Worded context (names (.str s)) := by
  rw [inserted, insertedInString] at worded
  rw [names]
  unfold fillString at filled
  split at filled
  next name lone =>
    obtain ⟨found, answer, filled⟩ := bind_eq_ok.1 filled
    cases found with
    | none => cases filled
    | some w =>
      cases filled
      have there := found?_eq_ok.1 answer
      simp [lone, Worded, there]
  next others =>
    obtain ⟨text, -, same⟩ := bind_eq_ok.1 filled
    obtain rfl := congrArg Filled.value (Except.ok.inj same)
    exact iff_of_true rfl (by simpa [others] using worded)

end Template

namespace Call

open Template

variable {call : Call} {context : Value} {d : DefinitionFault}

theorem filled_of_readable (readable : Readable context (names call.template)) :
    (Worded context (inserted call.template) → ∃ parts, call.filled context =
        .ok ⟨parts, (names call.template).filter (absent context)⟩ ∧
      fillString context call.path =
        .ok ⟨parts.path, (names (.str call.path)).filter (absent context)⟩) ∧
    (¬ Worded context (inserted call.template) →
      call.filled context = .error .unreadable) := by
  have each : ∀ m ∈ call.queryArgs ++ call.headers, Fills context m.2 :=
    fun m _ => fill_fills context m.2
  obtain ⟨queryEach, headerEach⟩ := List.forall_mem_append.1 each
  obtain ⟨inPath, readable⟩ := readable.append
  obtain ⟨inQuery, readable⟩ := readable.append
  obtain ⟨inHeaders, readable⟩ := readable.append
  obtain ⟨inBody, -⟩ := readable.append
  obtain ⟨pathDone, pathFails⟩ := fillString_fills context call.path inPath
  obtain ⟨queryDone, queryFails⟩ := fillMembers_fills queryEach inQuery
  obtain ⟨headersDone, headersFail⟩ := fillMembers_fills headerEach inHeaders
  obtain ⟨bodyDone, bodyFails⟩ := fill_fills context call.body inBody
  have parts : Worded context (inserted call.template) ↔
      Worded context (inserted (.str call.path)) ∧
      Worded context (insertedInMembers call.queryArgs) ∧
      Worded context (insertedInMembers call.headers) ∧
      Worded context (inserted call.body) := by
    simp [template, inserted, insertedInItems, worded_append]
  rw [fill] at pathDone pathFails
  rw [parts]
  constructor
  · rintro ⟨path, query, headers, body⟩
    obtain ⟨path, pathFilled, -⟩ := pathDone path
    obtain ⟨queryArgs, queryFilled, -⟩ := queryDone query
    obtain ⟨headers, headersFilled, -⟩ := headersDone headers
    obtain ⟨body, bodyFilled, -⟩ := bodyDone body
    refine ⟨⟨path, queryArgs, headers, body⟩, ?_, pathFilled⟩
    simp [filled, pathFilled, queryFilled, headersFilled, bodyFilled, template, names, namesOfItems]
  · intro wordless
    refine bind_eq_error_of_not_and (fun h => (pathDone h).imp' _ fun _ => And.left) pathFails
      (fun _ wordless => ?_) wordless
    refine bind_eq_error_of_not_and (fun h => (queryDone h).imp' _ fun _ => And.left) queryFails
      (fun _ wordless => ?_) wordless
    refine bind_eq_error_of_not_and (fun h => (headersDone h).imp' _ fun _ => And.left) headersFail
      (fun _ wordless => ?_) wordless
    rw [bodyFails wordless, error_bind]

section

variable (readable : Readable context call.placeholders)

include readable

theorem substitute_of_not_worded (wordless : ¬ Worded context (inserted call.template)) :
    call.substitute context = .error .unreadable := by
  rw [substitute, (filled_of_readable (readable_names readable)).2 wordless, error_bind]

theorem substitute_of_incomplete (worded : Worded context (inserted call.template))
    (gone : call.placeholders.filter (absent context) ≠ []) :
    call.substitute context = bound context >>= fun bound =>
      .error (.definition (.unresolved (call.placeholders.filter (absent context)) bound)) := by
  obtain ⟨parts, filled, -⟩ := (filled_of_readable (readable_names readable)).1 worded
  rw [placeholders, Template.placeholders, ← Distinct.eraseDups_filter] at gone ⊢
  have some_missing : (names call.template).filter (absent context) ≠ [] :=
    mt Distinct.eraseDups_eq_nil_iff.2 gone
  rw [substitute, filled, ok_bind, Filled.complete_of_missing some_missing]
  cases bound context <;> rfl

theorem substitute_of_complete (worded : Worded context (inserted call.template))
    (complete : call.placeholders.filter (absent context) = []) :
    (Worded context (names (.str call.path)) →
      ∃ c, call.substitute context = .ok c) ∧
    (¬ Worded context (names (.str call.path)) →
      call.substitute context = .error .unreadable) := by
  obtain ⟨parts, filled, pathFilled⟩ := (filled_of_readable (readable_names readable)).1 worded
  rw [placeholders, Template.placeholders, ← Distinct.eraseDups_filter] at complete
  have none_missing := Distinct.eraseDups_eq_nil_iff.1 complete
  have none_in_path : (names (.str call.path)).filter (absent context) = [] := by
    rw [template, names, namesOfItems, List.filter_append] at none_missing
    exact (List.append_eq_nil_iff.1 none_missing).1
  have inPath : Worded context (inserted (.str call.path)) := by
    rw [template, inserted, insertedInItems, worded_append] at worded
    exact worded.1
  rw [none_in_path] at pathFilled
  have written := isWritable_of_filled pathFilled inPath
  have whole : call.substitute context = (do
      return ⟨← parts.path.asText, call.method, parts.queryArgs, parts.headers, parts.body⟩) := by
    simp [substitute, filled, Filled.complete, none_missing]
  rw [whole]
  refine ⟨fun path => ?_, fun path => ?_⟩
  · rw [Value.asText_of_isWritable (written.2 path)]
    exact ⟨_, rfl⟩
  · rw [Value.asText_of_not_isWritable (Bool.eq_false_of_not_eq_true (mt written.1 path)),
      error_bind]

theorem exists_substitute_iff : (∃ c, call.substitute context = .ok c) ↔
    call.placeholders.filter (absent context) = [] ∧
      Worded context (names (.str call.path) ++ inserted call.template) := by
  rw [worded_append]
  by_cases worded : Worded context (inserted call.template)
  · by_cases complete : call.placeholders.filter (absent context) = []
    · obtain ⟨done, fails⟩ := substitute_of_complete readable worded complete
      refine ⟨fun ⟨c, ok⟩ => ⟨complete, by_contra fun path => ?_, worded⟩, fun h => done h.2.1⟩
      rw [fails fun h => path h] at ok
      cases ok
    · rw [substitute_of_incomplete readable worded complete]
      cases bound context <;> simp [complete]
  · simp [substitute_of_not_worded readable worded, worded]

theorem substitute_eq_definition_iff :
    call.substitute context = .error (.definition d) ↔
      Worded context (inserted call.template) ∧
        call.placeholders.filter (absent context) ≠ [] ∧
        ∃ bound, Reports context bound ∧
          d = .unresolved (call.placeholders.filter (absent context)) bound := by
  by_cases worded : Worded context (inserted call.template)
  · by_cases complete : call.placeholders.filter (absent context) = []
    · obtain ⟨done, fails⟩ := substitute_of_complete readable worded complete
      by_cases path : Worded context (names (.str call.path))
      · obtain ⟨c, ok⟩ := done path
        simp [ok, complete]
      · simp [fails path, complete]
    · simp only [substitute_of_incomplete readable worded complete, ← bound_eq_ok]
      cases reported : bound context with
      | ok names => simp [complete, worded, eq_comm]
      | error f =>
        have other : f ≠ .definition d := fun same => bound_ne_definition (same ▸ reported)
        simp [other]
  · simp [substitute_of_not_worded readable worded, worded]

end

end Call

namespace Endpoint

variable {r : Resolved} {context : Value} {d : DefinitionFault}

theorem Resolved.exists_substitute_iff (readable : Template.Readable context r.placeholders) :
    (∃ c, r.call.substitute context = .ok c) ↔ r.missing context = [] ∧ r.Worded context := by
  rw [← placeholders_call] at readable
  rw [Call.exists_substitute_iff readable, placeholders_call, inserted_call]
  rfl

theorem Resolved.substitute_eq_definition_iff
    (readable : Template.Readable context r.placeholders) :
    r.call.substitute context = .error (.definition d) ↔
      Template.Worded context r.inserted ∧ r.missing context ≠ [] ∧
        ∃ bound, Template.Reports context bound ∧
          d = .unresolved (r.missing context) bound := by
  rw [← placeholders_call] at readable
  rw [Call.substitute_eq_definition_iff readable, placeholders_call, inserted_call]
  rfl

end Endpoint

theorem Plan.call_of_make {definitions : Registry.Definitions} {request : Request} {p : Plan}
    (made : (make definitions request).result = .ok p) : p.call = p.endpoint.call := by
  unfold make at made
  obtain ⟨entry, -, made⟩ := Noted.bind_eq_ok.1 made
  obtain ⟨pagination, -, made⟩ := Noted.bind_eq_ok.1 made
  dsimp only at made
  split at made
  · cases made
    rfl
  · cases made

namespace Fetch

variable {definitions : Registry.Definitions} {request : Request} {contexts : List Value}
  {d : DefinitionFault}

/-- What is wrong with the configuration of a request under contexts. -/
inductive Mistake (definitions : Registry.Definitions) (request : Request) (contexts : List Value) :
    DefinitionFault → Prop where
  | unbound {d : DefinitionFault}
      (fault : (Plan.make definitions request).result = .error (.definition d)) :
    Mistake definitions request contexts d
  | unfilled {p front context behind bound} (made : (Plan.make definitions request).result = .ok p)
      (listed : contexts = front ++ context :: behind)
      (before : ∀ c ∈ front, p.endpoint.missing c = [] ∧ p.endpoint.Worded c)
      (worded : Template.Worded context p.endpoint.inserted)
      (gone : p.endpoint.missing context ≠ [])
      (reported : Template.Reports context bound) :
    Mistake definitions request contexts (.unresolved (p.endpoint.missing context) bound)

/-- Every look-up of a placeholder gives an answer, be it that there is nothing. -/
def Readable (definitions : Registry.Definitions) (request : Request) (contexts : List Value) :
    Prop :=
  ∀ p, (Plan.make definitions request).result = .ok p → ∀ context ∈ contexts,
    Template.Readable context p.endpoint.placeholders

theorem firstCalls_eq_definition_iff {p : Plan}
    (made : (Plan.make definitions request).result = .ok p)
    (readable : Readable definitions request contexts) :
    Traversal.firstCalls p.call contexts = .error (.definition d) ↔
      ∃ front context behind, contexts = front ++ context :: behind ∧
        (∀ c ∈ front, p.endpoint.missing c = [] ∧ p.endpoint.Worded c) ∧
        Template.Worded context p.endpoint.inserted ∧ p.endpoint.missing context ≠ [] ∧
        ∃ bound, Template.Reports context bound ∧
          d = .unresolved (p.endpoint.missing context) bound := by
  have each := readable p made
  rw [Traversal.firstCalls_eq_error, Plan.call_of_make made]
  constructor
  · rintro ⟨front, context, behind, rfl, before, failed⟩
    obtain ⟨frontEach, restEach⟩ := List.forall_mem_append.1 each
    obtain ⟨here, -⟩ := List.forall_mem_cons.1 restEach
    exact ⟨front, context, behind, rfl, fun c member =>
        (Endpoint.Resolved.exists_substitute_iff (frontEach c member)).1 (before c member),
      (Endpoint.Resolved.substitute_eq_definition_iff here).1 failed⟩
  · rintro ⟨front, context, behind, rfl, before, reported⟩
    obtain ⟨frontEach, restEach⟩ := List.forall_mem_append.1 each
    obtain ⟨here, -⟩ := List.forall_mem_cons.1 restEach
    exact ⟨front, context, behind, rfl, fun c member =>
        (Endpoint.Resolved.exists_substitute_iff (frontEach c member)).2 (before c member),
      (Endpoint.Resolved.substitute_eq_definition_iff here).2 reported⟩

theorem mistake_iff (readable : Readable definitions request contexts) :
    Mistake definitions request contexts d ↔
      (Plan.make definitions request).result = .error (.definition d) ∨
      ∃ p, (Plan.make definitions request).result = .ok p ∧
        Traversal.firstCalls p.call contexts = .error (.definition d) := by
  constructor
  · intro mistake
    cases mistake with
    | unbound fault => exact .inl fault
    | unfilled made listed before worded gone reported =>
      exact .inr ⟨_, made, (firstCalls_eq_definition_iff made readable).2
        ⟨_, _, _, listed, before, worded, gone, _, reported, rfl⟩⟩
  · rintro (fault | ⟨p, made, fault⟩)
    · exact .unbound fault
    · obtain ⟨front, context, behind, listed, before, worded, gone, bound, reported, rfl⟩ :=
        (firstCalls_eq_definition_iff made readable).1 fault
      exact .unfilled made listed before worded gone reported

/-- Nothing but a missing value stands in the way of filling an endpoint: all that becomes a text
can be written, and the context is an object, or else what it binds can be reported. -/
structure Orderly (p : Plan) (context : Value) : Prop where
  worded : p.endpoint.Worded context
  named : (∃ members, context = .obj members) ∨ ∃ bound, Template.Reports context bound

theorem Orderly.reported {p : Plan} {context : Value} (orderly : Orderly p context) :
    ∃ bound, Template.Reports context bound := by
  rcases orderly.named with ⟨members, rfl⟩ | reported
  · exact Template.exists_reports_obj members
  · exact reported

theorem exists_mistake_iff (orderly : ∀ p, (Plan.make definitions request).result = .ok p →
      ∀ context ∈ contexts, Orderly p context) :
    (∃ d, Mistake definitions request contexts d) ↔
      (∃ d, (Plan.make definitions request).result = .error (.definition d)) ∨
      ∃ p, (Plan.make definitions request).result = .ok p ∧
        ∃ context ∈ contexts, p.endpoint.missing context ≠ [] := by
  constructor
  · rintro ⟨d, mistake⟩
    cases mistake with
    | unbound fault => exact .inl ⟨d, fault⟩
    | unfilled made listed before _ gone _ =>
      exact .inr ⟨_, made, _, by simp [listed], gone⟩
  · rintro (⟨d, fault⟩ | ⟨p, made, context, member, gone⟩)
    · exact ⟨d, .unbound fault⟩
    · have some_first : (contexts.find? fun c => !(p.endpoint.missing c).isEmpty).isSome = true :=
        List.find?_isSome.2 ⟨context, member, by simpa using gone⟩
      obtain ⟨first, found⟩ := Option.isSome_iff_exists.1 some_first
      obtain ⟨here, front, behind, listed, before⟩ := List.find?_eq_some_iff_append.1 found
      have complete : ∀ c ∈ front, p.endpoint.missing c = [] := by simpa using before
      have each := orderly p made
      rw [listed] at each
      obtain ⟨frontEach, restEach⟩ := List.forall_mem_append.1 each
      obtain ⟨inFirst, -⟩ := List.forall_mem_cons.1 restEach
      obtain ⟨bound, reported⟩ := inFirst.reported
      exact ⟨_, .unfilled made listed
        (fun c member => ⟨complete c member, (frontEach c member).worded⟩)
        (Template.worded_append.1 inFirst.worded).2 (by simpa using here) reported⟩

end Fetch

namespace Schedule

open Fetch

variable {σ : Type} {c : Collaborators σ} {definitions : Registry.Definitions} {request : Request}
  {contexts : List Value} {typeName : Value} {d : DefinitionFault} {p : Plan}

/-- How the fetch of one request can go, with any continuations: what it has sent so far, and how it
has ended. Nothing is traversed unless the calls of all contexts could be filled. -/
inductive RequestFetch (s : Surroundings σ)
    (continues : Pagination.Definition → Pagination.Continuation)
    (definitions : Registry.Definitions) (request : Request) (contexts : List Value)
    (typeName : Value) : List (String × Call) → Option (TaskEnd (List Item)) → Prop where
  | unbound {f} (fault : (Plan.make definitions request).result = .error f) :
    RequestFetch s continues definitions request contexts typeName [] (some (.raised (.failure f)))
  | unfilled {p : Plan} {f} (made : (Plan.make definitions request).result = .ok p)
      (fault : Traversal.firstCalls p.call contexts = .error f) :
    RequestFetch s continues definitions request contexts typeName [] (some (.raised (.failure f)))
  | traversing {p : Plan} {filled labels o} (made : (Plan.make definitions request).result = .ok p)
      (all : Traversal.firstCalls p.call contexts = .ok filled)
      (run : Steps (Exposed (Owner.Step
          (ContextTask.Step s ⟨p.clientName, .str p.endpointId, continues p.pagination⟩)
          (JobTask.Extracts s p typeName)))
        (Owner.start (filled.map ContextTask.fresh)) labels o) :
    RequestFetch s continues definitions request contexts typeName (batchCalls labels) o.ended

variable {s : Surroundings σ} {continues : Pagination.Definition → Pagination.Continuation}
  {sent : List (String × Call)} {e : Option (TaskEnd (List Item))}

theorem RequestFetch.mistake (sound : s.Sound)
    (reads : ∀ pagination history page current,
      ReadsData (continues pagination history page current).result)
    (readable : Readable definitions request contexts)
    (fetch : RequestFetch s continues definitions request contexts typeName sent
      (some (.raised (.failure (.definition d))))) :
    sent = [] ∧ Mistake definitions request contexts d := by
  generalize raised : some (TaskEnd.raised (Cause.failure (Failure.definition d))) = e at fetch
  cases fetch with
  | unbound fault =>
    cases raised
    exact ⟨rfl, .unbound fault⟩
  | unfilled made fault =>
    cases raised
    exact ⟨rfl, (mistake_iff readable).2 (.inr ⟨_, made, fault⟩)⟩
  | traversing made all run => cases JobTask.data_of_raised sound (reads _) run raised.symm

theorem RequestFetch.of_mistake (readable : Readable definitions request contexts)
    (mistake : Mistake definitions request contexts d) :
    RequestFetch s continues definitions request contexts typeName sent e ↔
      sent = [] ∧ e = some (.raised (.failure (.definition d))) := by
  rcases (mistake_iff readable).1 mistake with fault | ⟨p, made, fault⟩
  · constructor
    · intro fetch
      cases fetch with
      | unbound other =>
        cases fault.symm.trans other
        exact ⟨rfl, rfl⟩
      | unfilled made => cases fault.symm.trans made
      | traversing made => cases fault.symm.trans made
    · rintro ⟨rfl, rfl⟩
      exact .unbound fault
  · constructor
    · intro fetch
      cases fetch with
      | unbound other => cases made.symm.trans other
      | unfilled also other =>
        obtain rfl := Except.ok.inj (made.symm.trans also)
        cases fault.symm.trans other
        exact ⟨rfl, rfl⟩
      | traversing also all =>
        obtain rfl := Except.ok.inj (made.symm.trans also)
        cases fault.symm.trans all
    · rintro ⟨rfl, rfl⟩
      exact .unfilled made fault

section

variable {limit : Nat} {w : σ} {f : Failure}

theorem data_of_traverse (sound : c.surroundings.Sound) {first : Value × Call}
    (failed : (Fetch.traverse c limit p first w).ending = .failed f) : f.isDefinition = false := by
  have enough : (Fetch.traverse c limit p first w).ending ≠ .exhausted := by
    rw [failed]
    rintro ⟨⟩
  have fetched : Traversal.fetch p.channel.client (c.execute p.channel.client) p.channel.endpoint
      p.channel.continuation limit first w = Fetch.traverse c limit p first w := rfl
  obtain ⟨t, path, ended⟩ := ContextTask.path_of_fetch first w fetched enough
  obtain ⟨labels, run, -⟩ := path.exposed
  refine ContextTask.sound_of_run sound (Pagination.next_readsData p.pagination.strategy) run ?_
  rw [Task.failure?_eq_some, ended, failed]
  rfl

theorem data_of_filled (sound : c.surroundings.Sound) {filled : List (Value × Call)}
    (all : Traversal.firstCalls p.call contexts = .ok filled)
    (failed : ((pagesOf c limit p (.arr contexts) >>= Fetch.finish c.adjust p typeName)
      w).ending = .failed f) : f.isDefinition = false := by
  have listed : ((Value.arr contexts).iterated >>= Traversal.firstCalls p.call) =
      .ok filled := all
  have pages : pagesOf c limit p (.arr contexts) w =
      Harvest.Batch.run p.clientName (filled.map (Fetch.traverse c limit p)) w :=
    Traversal.fetchAll_filled listed w
  cases ending : (pagesOf c limit p (.arr contexts) w).ending with
  | done fetched =>
    rw [Run.ending_bind_of_done _ ending] at failed
    have within := Fetch.finish_within (fun _ h => h) sound.hooks p typeName fetched
    rcases within.ending (pagesOf c limit p (.arr contexts) w).world with
      ⟨items, done⟩ | ⟨other, here, data⟩
    · cases done.symm.trans failed
    · obtain rfl := Ending.failed.inj (here.symm.trans failed)
      exact data
  | failed other =>
    rw [Run.ending_bind_of_failed _ ending] at failed
    obtain rfl := Ending.failed.inj failed
    rw [pages] at ending
    have member := Harvest.Batch.mem_of_firstFailure? (Harvest.Batch.firstFailure?_of_join ending)
    obtain ⟨task, inside, w', here⟩ := Harvest.Batch.task_of_mem_endings member
    obtain ⟨first, -, rfl⟩ := List.mem_map.1 inside
    exact data_of_traverse sound here
  | waiting =>
    rw [Run.bind_of_waiting _ ending] at failed
    cases failed
  | exhausted =>
    rw [Run.bind_of_exhausted _ ending] at failed
    cases failed

theorem request_of_fault (c : Collaborators σ) (contexts : List Value) (limit : Nat)
    (typeName : Value) (w : σ) (fault : (Plan.make definitions request).result = .error f ∨
      ∃ p, (Plan.make definitions request).result = .ok p ∧
        Traversal.firstCalls p.call contexts = .error f) :
    (Fetch.request definitions c limit request (.arr contexts) typeName w).ending =
        .failed f ∧
      callsIn (Fetch.request definitions c limit request (.arr contexts) typeName
        w).events = [] := by
  rcases fault with fault | ⟨p, made, fault⟩
  · have failed : (Run.ofNoted (Plan.make definitions request) w).ending = .failed f := by
      rw [Run.ofNoted, fault]
    unfold Fetch.request
    rw [Run.bind_of_failed _ failed]
    exact ⟨rfl, callsIn_ofNoted _ w⟩
  · have listed : ((Value.arr contexts).iterated >>= Traversal.firstCalls p.call) =
        .error f := fault
    have unfilled : pagesOf c limit p (.arr contexts) w = _ :=
      Traversal.fetchAll_faulty listed w
    rw [(request_of_make made limit typeName w).1, (request_of_make made limit typeName w).2,
      Run.bind_of_failed _ (congrArg Outcome.ending unfilled), unfilled]
    exact ⟨rfl, rfl⟩

theorem ending_request_iff (sound : c.surroundings.Sound)
    (readable : Readable definitions request contexts) :
    (Fetch.request definitions c limit request (.arr contexts) typeName w).ending =
        .failed (.definition d) ↔ Mistake definitions request contexts d := by
  rw [mistake_iff readable]
  refine ⟨fun failed => ?_, fun fault => (request_of_fault c contexts limit typeName w fault).1⟩
  cases made : (Plan.make definitions request).result with
  | error f =>
    have other := (request_of_fault c contexts limit typeName w (.inl made)).1
    cases other.symm.trans failed
    exact .inl rfl
  | ok p =>
    cases all : Traversal.firstCalls p.call contexts with
    | error f =>
      have other := (request_of_fault c contexts limit typeName w (.inr ⟨p, made, all⟩)).1
      cases other.symm.trans failed
      exact .inr ⟨p, rfl, all⟩
    | ok filled =>
      rw [(request_of_make made limit typeName w).2] at failed
      cases data_of_filled sound all failed

end

/-- A fetch of one request raises a mistake in the configuration exactly if there is one, however
its steps fall: if the request cannot be bound, or if a context leaves a placeholder without a
value, of which the first one is reported with all that it leaves. No call has been made by then. A
context with an integer of too many digits for a text ends the filling without a report of what is
missing, and so does one that is no object if its items have no order or cannot be written. -/
theorem request_fails_fast (sound : c.surroundings.Sound)
    (continues : Pagination.Definition → Pagination.Continuation)
    (reads : ∀ pagination history page current,
      ReadsData (continues pagination history page current).result)
    (definitions : Registry.Definitions) (request : Request) (contexts : List Value)
    (typeName : Value) (readable : Readable definitions request contexts) :
    (∀ sent d, RequestFetch c.surroundings continues definitions request contexts typeName sent
        (some (.raised (.failure (.definition d)))) ↔
      sent = [] ∧ Mistake definitions request contexts d) ∧
    (∀ d, Mistake definitions request contexts d → ∀ sent e,
      RequestFetch c.surroundings continues definitions request contexts typeName sent e →
        sent = [] ∧ e = some (.raised (.failure (.definition d)))) ∧
    (∀ limit w d, (Fetch.request definitions c limit request (.arr contexts) typeName
        w).ending = .failed (.definition d) ↔ Mistake definitions request contexts d) ∧
    (∀ limit w d, Mistake definitions request contexts d →
      callsIn (Fetch.request definitions c limit request (.arr contexts) typeName
        w).events = []) ∧
    ((∀ p, (Plan.make definitions request).result = .ok p →
        ∀ context ∈ contexts, Orderly p context) →
      ((∃ d, Mistake definitions request contexts d) ↔
        (∃ d, (Plan.make definitions request).result = .error (.definition d)) ∨
        ∃ p, (Plan.make definitions request).result = .ok p ∧
          ∃ context ∈ contexts, p.endpoint.missing context ≠ [])) := by
  refine ⟨fun sent d => ⟨fun fetch => fetch.mistake sound reads readable, fun h =>
      (RequestFetch.of_mistake readable h.2).2 ⟨h.1, rfl⟩⟩,
    fun d mistake sent e => (RequestFetch.of_mistake readable mistake).1,
    fun limit w d => ending_request_iff sound readable, fun limit w d mistake => ?_,
    exists_mistake_iff⟩
  exact (request_of_fault c contexts limit typeName w ((mistake_iff readable).1 mistake)).2

def emptyPages : Collaborators Unit :=
  ⟨fun _ _ w => (.page ⟨.null, 200, []⟩, w), fun _ _ w => (.error (.collaborator "no hook"), w)⟩

theorem emptyPages_sound : emptyPages.surroundings.Sound where
  clients client call f h := by
    obtain ⟨w, w', answer⟩ := h
    cases answer
  hooks hook c w f h := by
    cases h
    rfl

def partContexts (y : Value) : List Value :=
  [.obj [("x", .obj [("y", y)])], .obj [("x", .int 5)]]

section

variable (y : Value)

theorem lookup_part : Value.lookup (.obj [("x", .obj [("y", y)])]) "x.y" = .ok (some y) := by
  cbv

theorem lookup_no_part : Value.lookup (.obj [("x", .int 5)]) "x.y" = .ok none := by
  cbv

theorem made_part : (Plan.make partDefinitions partPlan.request).result = .ok partPlan := by
  cbv

theorem part_placeholders : partPlan.endpoint.placeholders = ["x.y"] := by
  decide +kernel

theorem part_inserted : partPlan.endpoint.inserted = ["x.y"] := by
  decide +kernel

theorem part_names : Template.names (.str partPlan.endpoint.path) = ["x.y"] := by
  decide +kernel

theorem part_readable : Readable partDefinitions partPlan.request (partContexts y) := by
  intro p also
  obtain rfl := Except.ok.inj (made_part.symm.trans also)
  simp [part_placeholders, partContexts, Template.Readable, lookup_part, lookup_no_part]

theorem part_missing : partPlan.endpoint.missing (.obj [("x", .int 5)]) = ["x.y"] := by
  simp [Endpoint.Resolved.missing, part_placeholders, Template.absent, lookup_no_part]

end

theorem second_context_fails_fast : emptyPages.surroundings.Sound ∧
    (∀ pagination : Pagination.Definition, ∀ history page current,
      ReadsData (pagination.strategy.next history page current).result) ∧
    Readable partDefinitions partPlan.request (partContexts (.int 1)) ∧
    (∀ sent e, RequestFetch emptyPages.surroundings (·.strategy.next) partDefinitions
        partPlan.request (partContexts (.int 1)) (.str "U") sent e →
      sent = [] ∧ e = some (.raised (.failure (.definition (.unresolved ["x.y"] [.str "x"]))))) ∧
    (Fetch.request partDefinitions emptyPages 5 partPlan.request
      (.arr (partContexts (.int 1))) (.str "U") ()).ending =
        .failed (.definition (.unresolved ["x.y"] [.str "x"])) := by
  have reads : ∀ pagination : Pagination.Definition, ∀ history page current,
      ReadsData (pagination.strategy.next history page current).result :=
    fun pagination => Pagination.next_readsData pagination.strategy
  have complete : partPlan.endpoint.missing (.obj [("x", .obj [("y", .int 1)])]) = [] := by
    simp [Endpoint.Resolved.missing, part_placeholders, Template.absent, lookup_part]
  have written : partPlan.endpoint.Worded (.obj [("x", .obj [("y", .int 1)])]) := by
    have one : (Value.int 1).isWritable = true := by decide
    rw [Endpoint.Resolved.Worded, part_names, part_inserted]
    simp [Template.Worded, lookup_part, one]
  have worded : Template.Worded (.obj [("x", .int 5)]) partPlan.endpoint.inserted := by
    rw [part_inserted]
    simp [Template.Worded, lookup_no_part]
  have mistake : Mistake partDefinitions partPlan.request (partContexts (.int 1))
      (.unresolved ["x.y"] [.str "x"]) := by
    rw [← part_missing]
    exact .unfilled made_part rfl (List.forall_mem_singleton.2 ⟨complete, written⟩) worded
      (by simp [part_missing]) ⟨by cbv, by decide⟩
  obtain ⟨-, only, carriedOut, -⟩ := request_fails_fast emptyPages_sound (·.strategy.next) reads
    partDefinitions partPlan.request (partContexts (.int 1)) (.str "U") (part_readable (.int 1))
  exact ⟨emptyPages_sound, reads, part_readable (.int 1), only _ mistake,
    (carriedOut 5 () _).2 mistake⟩

/-- The second context leaves a placeholder without a value, but the first one has an integer of too
many digits to be put into the path, and that is what the fetch fails over. A context that is a list
is not reported either, if its items have no order. -/
theorem unwritten_part_hides_missing :
    (Plan.make partDefinitions partPlan.request).result = .ok partPlan ∧
    Readable partDefinitions partPlan.request (partContexts Value.unwritten) ∧
    (∃ context ∈ partContexts Value.unwritten, partPlan.endpoint.missing context ≠ []) ∧
    (∀ limit, (Fetch.request partDefinitions emptyPages limit partPlan.request
      (.arr (partContexts Value.unwritten)) (.str "U") ()).ending = .failed .unreadable) ∧
    Readable partDefinitions partPlan.request [.arr [.int 1, .str "x"]] ∧
    partPlan.endpoint.missing (.arr [.int 1, .str "x"]) = ["x.y"] ∧
    ∀ limit, (Fetch.request partDefinitions emptyPages limit partPlan.request
      (.arr [.arr [.int 1, .str "x"]]) (.str "U") ()).ending = .failed .misfit := by
  have asked : partPlan.call.placeholders = ["x.y"] := by decide +kernel
  have put : Template.inserted partPlan.call.template = ["x.y"] := by decide +kernel
  have hidden : Traversal.firstCalls partPlan.call (partContexts Value.unwritten) =
      .error .unreadable := by
    refine Traversal.firstCalls_eq_error.2 ⟨[], _, _, rfl, nofun,
      Call.substitute_of_not_worded ?_ ?_⟩
    · rw [asked]
      simp [Template.Readable, lookup_part]
    · rw [put]
      simp [Template.Worded, lookup_part, Value.isWritable_unwritten]
  have nowhere : Value.lookup (.arr [.int 1, .str "x"]) "x.y" = .ok none := by cbv
  have gone : partPlan.call.placeholders.filter (Template.absent (.arr [.int 1, .str "x"])) =
      ["x.y"] := by
    simp [asked, Template.absent, nowhere]
  have unsorted : (Value.arr [.int 1, .str "x"]).sorted? = none := by decide
  have unreported : Traversal.firstCalls partPlan.call [.arr [.int 1, .str "x"]] =
      .error .misfit := by
    refine Traversal.firstCalls_eq_error.2 ⟨[], _, _, rfl, nofun, ?_⟩
    rw [Call.substitute_of_incomplete ?readable ?worded (by simp [gone]),
      Template.bound_of_unsorted unsorted, error_bind]
    case readable =>
      rw [asked]
      simp [Template.Readable, nowhere]
    case worded =>
      rw [put]
      simp [Template.Worded, nowhere]
  refine ⟨made_part, part_readable Value.unwritten, ⟨.obj [("x", .int 5)], by simp [partContexts],
    by simp [part_missing]⟩, fun limit => ?_, fun p also => ?_, ?_, fun limit => ?_⟩
  · exact (request_of_fault emptyPages _ limit (.str "U") () (.inr ⟨_, made_part, hidden⟩)).1
  · obtain rfl := Except.ok.inj (made_part.symm.trans also)
    simp [part_placeholders, Template.Readable, nowhere]
  · simp [Endpoint.Resolved.missing, part_placeholders, Template.absent, nowhere]
  · exact (request_of_fault emptyPages _ limit (.str "U") () (.inr ⟨_, made_part, unreported⟩)).1

end Schedule

end Harvest
