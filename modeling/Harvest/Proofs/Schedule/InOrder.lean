import Harvest.Proofs.Batch
import Harvest.Proofs.Schedule.Progress

namespace Harvest

/-- What tasks meet with, if some collaborators stand behind it, in whatever state they are. -/
def Collaborators.surroundings {σ : Type} (c : Collaborators σ) : Schedule.Surroundings σ where
  answers client call reply := ∃ w w', c.execute client call w = (reply, w')
  adjust := c.adjust

namespace Schedule

variable {σ κ α β L : Type} {c : Collaborators σ}

namespace ContextTask

variable {ch : Channel} {limit : Nat}

theorem path_of_run (t : Traversal) (w : σ) {loop : Outcome σ (List Page)}
    (h : Traversal.run ch.client (c.execute ch.client) ch.endpoint ch.continuation limit t w = loop)
    (enough : loop.ending ≠ .exhausted) :
    ∃ sent t', Path (Step c.surroundings ch) id ⟨.waiting t, false, none⟩ sent t' ∧
      callsIn loop.events = (ch.client, t.current) :: sent ∧
      t'.ended = (loop.ending.map (Traversal.Fetched.mk t.context)).taskEnd? := by
  induction limit generalizing t w loop with
  | zero =>
    obtain rfl := h.symm
    exact absurd rfl enough
  | succ limit ih =>
    obtain ⟨reply, w', answered⟩ : ∃ reply w', c.execute ch.client t.current w = (reply, w') :=
      ⟨_, _, rfl⟩
    have answer : c.surroundings.answers ch.client t.current reply := ⟨w, w', answered⟩
    simp only [Traversal.run, answered] at h
    cases reply with
    | silent =>
      obtain rfl := h.symm
      exact ⟨[], _, .refl _, rfl, rfl⟩
    | failed f =>
      obtain rfl := h.symm
      exact ⟨[], _, .single (.failed answer) rfl, rfl, rfl⟩
    | page page =>
      have step : Path (Step c.surroundings ch) id ⟨.waiting t, false, none⟩
          (callsIn (ch.received t page).1) (ch.received t page).2 := .single (.page answer) rfl
      have silent : callsIn (t.receive ch.endpoint ch.continuation page).1 = [] :=
        Traversal.callsIn_receive
      unfold Channel.received at step
      cases received : t.receive ch.endpoint ch.continuation page with
      | mk events following =>
        simp only [received] at h step silent
        cases following with
        | finished pages =>
          obtain rfl := h.symm
          exact ⟨_, _, step, by simp [silent], rfl⟩
        | broken f =>
          obtain rfl := h.symm
          exact ⟨_, _, step, by simp [silent], rfl⟩
        | goOn next =>
          obtain rfl := h.symm
          obtain ⟨sent, t', path, same, ended⟩ := ih next w' rfl enough
          have kept : next.context = t.context := by
            obtain ⟨call, -, -, -, rfl⟩ := Traversal.receive_goOn (by rw [received])
            rfl
          exact ⟨_, t', step.trans path, by simp [silent, same], kept ▸ ended⟩

theorem path_of_fetch (first : Value × Call) (w : σ) {fetched : Outcome σ Traversal.Fetched}
    (h : Traversal.fetch ch.client (c.execute ch.client) ch.endpoint ch.continuation limit first w =
      fetched) (enough : fetched.ending ≠ .exhausted) :
    ∃ t', Path (Step c.surroundings ch) id (fresh first) (callsIn fetched.events) t' ∧
      t'.ended = fetched.ending.taskEnd? := by
  have begun : Path (Step c.surroundings ch) id (fresh first) (callsIn (ch.opened first).1)
      (ch.opened first).2 := .single .opened rfl
  unfold Channel.opened at begun
  cases opened : Traversal.opening first with
  | error f =>
    have fault : fetched = ⟨w, [], .failed f⟩ := by
      rw [← h, Traversal.fetch, opened]
      exact Run.bind_of_failed _ rfl
    rw [opened] at begun
    subst fault
    exact ⟨_, begun, rfl⟩
  | ok names =>
    rw [opened] at begun
    rw [Traversal.fetch_opened opened rfl] at h
    obtain rfl := h.symm
    have enough : (Traversal.run ch.client (c.execute ch.client) ch.endpoint ch.continuation limit
        (.start first.1 first.2) w).ending ≠ .exhausted := by
      intro exhausted
      simp [exhausted, Ending.map] at enough
    obtain ⟨sent, t', path, same, ended⟩ := path_of_run (.start first.1 first.2) w rfl enough
    refine ⟨t', ?_, ended⟩
    rw [callsIn_cons, same]
    simpa [Traversal.start] using begun.trans path

theorem paths_of_runAll (firsts : List (Value × Call)) (w : σ)
    {settled : Batch.Settled σ Traversal.Fetched}
    (h : Batch.runAll (firsts.map (Traversal.fetch ch.client (c.execute ch.client) ch.endpoint
      ch.continuation limit)) w = settled)
    (enough : ∀ e ∈ settled.endings, e ≠ .exhausted) :
    ∃ goals, Owner.Goals (Step c.surroundings ch) id (firsts.map fresh) goals ∧
      goals.flatMap (·.1) = callsIn settled.events ∧
      List.Forall₂ (fun goal e => goal.2.ended = e.taskEnd?) goals settled.endings := by
  induction firsts generalizing w settled with
  | nil =>
    obtain rfl := h.symm
    exact ⟨[], .nil, rfl, .nil⟩
  | cons first rest ih =>
    obtain rfl := h.symm
    obtain ⟨here, others⟩ := List.forall_mem_cons.1 enough
    obtain ⟨t', path, ended⟩ := path_of_fetch first w rfl here
    obtain ⟨goals, paths, same, endings⟩ := ih _ rfl others
    refine ⟨(_, t') :: goals, .cons path paths, ?_, .cons ended endings⟩
    simp [Batch.runAll, same]
    rfl

end ContextTask

namespace Batch

variable {tasks : List (Task κ α)} {b : Batch κ α} {endings : List (Ending α)} {results : List α}

theorem findSome?_failure? (same : List.Forall₂ (fun t e => t.ended = e.taskEnd?) tasks endings) :
    tasks.findSome? Task.failure? = Harvest.Batch.firstFailure? endings := by
  induction same with
  | nil => rfl
  | @cons t e tasks endings ended _ ih =>
    cases e <;> simp [Task.failure?, ended, Ending.taskEnd?, Harvest.Batch.firstFailure?, ih]

theorem results?_of_returned
    (returned : List.Forall₂ (fun t a => t.ended = some (.returned a)) b.tasks results) :
    b.results? = some results := by
  unfold results?
  generalize b.tasks = tasks at returned
  induction returned with
  | nil => rfl
  | cons ended _ ih => simp [Task.result?_eq_some.2 ended, ih]

structure Came (b : Batch κ α) (endings : List (Ending α)) : Prop where
  goingOn : b.cause = none
  first : b.first = Harvest.Batch.firstFailure? endings
  tasks : List.Forall₂ (fun t e => t.ended = e.taskEnd?) b.tasks endings

theorem Came.returned (came : b.Came endings) (joined : Harvest.Batch.join endings = .done results) :
    b.results? = some results := by
  have same := came.tasks
  rw [Harvest.Batch.endings_of_join joined, List.forall₂_map_right_iff] at same
  exact results?_of_returned same

end Batch

theorem ContextTask.batch_of_runAll (close : List Traversal.Fetched → List Event → TaskEnd β → Prop)
    (ch : Channel) {limit : Nat} (firsts : List (Value × Call)) (w : σ)
    {settled : Harvest.Batch.Settled σ Traversal.Fetched}
    (h : Harvest.Batch.runAll (firsts.map (Traversal.fetch ch.client (c.execute ch.client)
      ch.endpoint ch.continuation limit)) w = settled)
    (enough : ∀ e ∈ settled.endings, e ≠ .exhausted) :
    ∃ b, Path (Owner.Step (Step c.surroundings ch) close) (OwnerLabel.events id)
        (Owner.start (firsts.map fresh)) (callsIn settled.events) ⟨b, false, none⟩ ∧
      b.Came settled.endings := by
  obtain ⟨goals, paths, same, endings⟩ := paths_of_runAll firsts w h enough
  have running : ∀ t ∈ firsts.map fresh, t.ended = none := by
    intro t member
    obtain ⟨first, -, rfl⟩ := List.mem_map.1 member
    rfl
  have path := Owner.in_order close Step.running false paths running [] none none
  have ended : List.Forall₂ (fun t e => t.ended = e.taskEnd?) (goals.map (·.2)) settled.endings :=
    List.forall₂_map_left_iff.2 endings
  refine ⟨⟨goals.map (·.2), goals.findSome? (·.2.failure?), none⟩, ?_, rfl, ?_, ended⟩
  · rw [← same]
    exact path
  · rw [← Batch.findSome?_failure? ended, List.findSome?_map]
    rfl

theorem Batch.Came.raises (close : List Traversal.Fetched → List Event → TaskEnd β → Prop)
    (s : Surroundings σ) (ch : Channel) {b : Batch ContextState Traversal.Fetched}
    {endings : List (Ending Traversal.Fetched)} (came : b.Came endings) {f : Failure}
    (joined : Harvest.Batch.join endings = .failed f) :
    ∃ o, Path (Owner.Step (ContextTask.Step s ch) close) (OwnerLabel.events id) ⟨b, false, none⟩ [] o ∧
      o.ended = some (.raised (.failure f)) := by
  have first := came.first.trans (Harvest.Batch.firstFailure?_of_join joined)
  exact Owner.raises_first close ContextTask.Step.running (.refl (Task.mk b false none))
    came.goingOn first fun t _ => ContextTask.ends_of_told s ch t

theorem finish_ends (adjust : Adjuster σ) (p : Plan) (typeName : Value)
    (fetched : List Traversal.Fetched) :
    (Fetch.finish adjust p typeName fetched).Within fun _ => True :=
  Fetch.finish_within (fun _ _ => trivial) (fun _ _ _ _ _ => trivial) p typeName fetched

theorem callsIn_finish (adjust : Adjuster σ) (p : Plan) (typeName : Value)
    (fetched : List Traversal.Fetched) (w : σ) :
    callsIn (Fetch.finish adjust p typeName fetched w).events = [] :=
  callsIn_notices ((finish_ends adjust p typeName fetched).events w)

namespace JobTask

variable {adapter typeName : Value} {p : Plan} {limit : Nat} {filled : List (Value × Call)}

theorem path_of_contexts (p : Plan) (filled : List (Value × Call)) (w : σ)
    {settled : Harvest.Batch.Settled σ Traversal.Fetched}
    (h : Harvest.Batch.runAll (filled.map (Fetch.traverse c limit p)) w = settled)
    (enough : ∀ e ∈ settled.endings, e ≠ .exhausted) :
    ∃ b, Path (Step c.surroundings adapter typeName) (OwnerLabel.events id) (fresh p (.ok filled))
        (callsIn settled.events) ⟨⟨p, .ok filled, some b⟩, false, none⟩ ∧ b.Came settled.endings := by
  obtain ⟨b, path, came⟩ := ContextTask.batch_of_runAll (Extracts c.surroundings p typeName)
    p.channel filled w h enough
  have begun : Path (Step c.surroundings adapter typeName) (OwnerLabel.events id)
      (fresh p (.ok filled)) [] _ := .single .begun rfl
  exact ⟨b, begun.trans (own path), came⟩

variable (adapter typeName : Value) (p : Plan) (firsts : Except Failure (List (Value × Call)))
  {b : Batch ContextState Traversal.Fetched} {endings : List (Ending Traversal.Fetched)}

theorem path_of_done (came : b.Came endings) {fetched : List Traversal.Fetched}
    (joined : Harvest.Batch.join endings = .done fetched) (w : σ) :
    ∃ t', Path (Step c.surroundings adapter typeName) (OwnerLabel.events id)
        ⟨⟨p, firsts, some b⟩, false, none⟩ [] t' ∧
      t'.ended = (Fetch.finish c.adjust p typeName fetched w).ending.taskEnd? := by
  have within := finish_ends c.adjust p typeName fetched
  obtain ⟨e, ending⟩ : ∃ e, (Fetch.finish c.adjust p typeName fetched w).ending.taskEnd? = some e := by
    rcases within.ending w with ⟨items, done⟩ | ⟨f, failed, -⟩
    · exact ⟨_, by rw [done]; rfl⟩
    · exact ⟨_, by rw [failed]; rfl⟩
  have closed : Path (Owning c.surroundings typeName p) (OwnerLabel.events id) ⟨b, false, none⟩ []
      ⟨b, false, some e⟩ :=
    .single (.closed came.goingOn (came.returned joined) ⟨w, rfl, ending⟩)
      (callsIn_finish c.adjust p typeName fetched w)
  exact ⟨_, own closed, ending.symm⟩

theorem path_of_failed (came : b.Came endings) {f : Failure}
    (joined : Harvest.Batch.join endings = .failed f) :
    ∃ t', Path (Step c.surroundings adapter typeName) (OwnerLabel.events id)
        ⟨⟨p, firsts, some b⟩, false, none⟩ [] t' ∧ t'.ended = some (.raised (.failure f)) := by
  obtain ⟨o, path, ended⟩ := came.raises (Extracts c.surroundings p typeName) c.surroundings
    p.channel joined
  exact ⟨_, own path, ended⟩

theorem path_of_batch (came : b.Came endings) {before : Run σ (List Traversal.Fetched)} {w : σ}
    (joined : (before w).ending = Harvest.Batch.join endings) :
    ∃ t', Path (Step c.surroundings adapter typeName) (OwnerLabel.events id)
        ⟨⟨p, firsts, some b⟩, false, none⟩ [] t' ∧
      t'.ended = ((before >>= Fetch.finish c.adjust p typeName) w).ending.taskEnd? ∧
      callsIn ((before >>= Fetch.finish c.adjust p typeName) w).events =
        callsIn (before w).events := by
  cases ending : (before w).ending with
  | done fetched =>
    obtain ⟨t', path, ended⟩ := path_of_done adapter typeName p firsts came
      (joined.symm.trans ending) (before w).world
    rw [Run.bind_of_done _ ending]
    exact ⟨t', path, ended, by simp [callsIn_finish]⟩
  | failed f =>
    obtain ⟨t', path, ended⟩ := path_of_failed adapter typeName p firsts came
      (joined.symm.trans ending)
    rw [Run.bind_of_failed _ ending]
    exact ⟨t', path, ended, rfl⟩
  | waiting =>
    rw [Run.bind_of_waiting _ ending]
    exact ⟨_, .refl _, rfl, rfl⟩
  | exhausted =>
    rw [Run.bind_of_exhausted _ ending]
    exact ⟨_, .refl _, rfl, rfl⟩

end JobTask

theorem callsIn_ofNoted (a : Noted α) (w : σ) : callsIn (Run.ofNoted a w).events = [] := by
  refine callsIn_notices fun e member => ?_
  obtain ⟨n, -, rfl⟩ := List.mem_map.1 member
  exact ⟨n, rfl⟩

theorem callsIn_givenUp (client : String) (endings : List (Ending α)) :
    callsIn (Harvest.Batch.givenUp client endings) = [] := by
  unfold Harvest.Batch.givenUp
  split
  · simp [callsIn, List.filterMap_replicate]
  · rfl

/-- The traversal of contexts is carried out in one of the orders in which it may go. -/
theorem fetchAll_in_order (ch : Channel) {limit : Nat} {call : Call} {contexts : Value}
    {firsts : List (Value × Call)}
    (filled : (contexts.iterated >>= Traversal.firstCalls call) = .ok firsts) (w : σ)
    {pages : Outcome σ (List Traversal.Fetched)}
    (h : Traversal.fetchAll ch.client (c.execute ch.client) ch.endpoint ch.continuation limit call
      contexts w = pages)
    (enough : ∀ e ∈ (Harvest.Batch.runAll (firsts.map (Traversal.fetch ch.client
      (c.execute ch.client) ch.endpoint ch.continuation limit)) w).endings, e ≠ .exhausted) :
    ∃ labels o, TraversalRun c.surroundings ch firsts labels o ∧ none ∉ labels ∧
      o.ended = pages.ending.taskEnd? ∧ batchCalls labels = callsIn pages.events := by
  rw [Traversal.fetchAll_filled filled] at h
  obtain rfl := h.symm
  obtain ⟨b, path, came⟩ := ContextTask.batch_of_runAll (fun fetched events e =>
    events = [] ∧ e = TaskEnd.returned fetched) ch firsts w rfl enough
  suffices finished : ∃ o,
      Path (Owner.Step (ContextTask.Step c.surroundings ch) fun fetched events e =>
        events = [] ∧ e = TaskEnd.returned fetched) (OwnerLabel.events id) ⟨b, false, none⟩ [] o ∧
      o.ended = (Harvest.Batch.join _).taskEnd? by
    obtain ⟨o, rest, ended⟩ := finished
    obtain ⟨labels, run, untold, same⟩ := (path.trans rest).exposed
    refine ⟨labels, o, run, untold, ended, same.trans ?_⟩
    simp only [Harvest.Batch.run, callsIn_append, callsIn_givenUp]
  cases joined : Harvest.Batch.join (Harvest.Batch.runAll (firsts.map (Traversal.fetch ch.client
    (c.execute ch.client) ch.endpoint ch.continuation limit)) w).endings with
  | done fetched =>
    exact ⟨_, .single (.closed came.goingOn (came.returned joined) ⟨rfl, rfl⟩) rfl, rfl⟩
  | failed f => exact came.raises _ c.surroundings ch joined
  | _ => exact ⟨_, .refl _, rfl⟩

section

variable {definitions : Registry.Definitions} {request : Request} {p : Plan} {contexts : Value}

abbrev pagesOf (c : Collaborators σ) (limit : Nat) (p : Plan) (contexts : Value) :
    Run σ (List Traversal.Fetched) :=
  Traversal.fetchAll p.clientName (c.execute p.clientName) (.str p.endpointId)
    p.pagination.strategy.next limit p.call contexts

theorem request_of_make (made : (Plan.make definitions request).result = .ok p) (limit : Nat)
    (typeName : Value) (w : σ) :
    callsIn (Fetch.request definitions c limit request contexts typeName w).events =
        callsIn ((pagesOf c limit p contexts >>= Fetch.finish c.adjust p typeName) w).events ∧
      (Fetch.request definitions c limit request contexts typeName w).ending =
        ((pagesOf c limit p contexts >>= Fetch.finish c.adjust p typeName) w).ending := by
  unfold Fetch.request
  rw [Run.bind_of_done _ (Run.ending_ofNoted made w), Run.bind_of_done (a := ()) _ rfl]
  refine ⟨?_, rfl⟩
  rw [callsIn_append, callsIn_append, callsIn_ofNoted]
  rfl

/-- The fetch of one request is carried out in one of the orders in which it may go. -/
theorem request_in_order (made : (Plan.make definitions request).result = .ok p) (limit : Nat)
    (typeName : Value) (w : σ)
    (enough : ∀ filled, (contexts.iterated >>= Traversal.firstCalls p.call) = .ok filled →
      ∀ e ∈ (Harvest.Batch.runAll (filled.map (Fetch.traverse c limit p)) w).endings,
        e ≠ .exhausted) :
    ∃ labels t, RequestRun c.surroundings definitions.adapterName typeName p
        (contexts.iterated >>= Traversal.firstCalls p.call) labels t ∧ none ∉ labels ∧
      t.ended = (Fetch.request definitions c limit request contexts typeName w).ending.taskEnd? ∧
      batchCalls labels =
        callsIn (Fetch.request definitions c limit request contexts typeName w).events := by
  obtain ⟨sent, ending⟩ := request_of_make made limit typeName w
  rw [sent, ending]
  cases all : contexts.iterated >>= Traversal.firstCalls p.call with
  | error f =>
    have fault : pagesOf c limit p contexts w = _ := Traversal.fetchAll_faulty all w
    rw [Run.bind_of_failed _ (congrArg Outcome.ending fault), fault]
    have path : Path (JobTask.Step c.surroundings definitions.adapterName typeName)
        (OwnerLabel.events id) (JobTask.fresh p (.error f)) [] _ := .single .unfilled rfl
    obtain ⟨labels, run, untold, same⟩ := path.exposed
    exact ⟨labels, _, run, untold, rfl, same⟩
  | ok filled =>
    have batch : pagesOf c limit p contexts w = _ := Traversal.fetchAll_filled all w
    obtain ⟨b, path, came⟩ := JobTask.path_of_contexts p filled w rfl (enough filled all)
    obtain ⟨t', rest, ended, quiet⟩ := JobTask.path_of_batch definitions.adapterName typeName p
      (.ok filled) came (congrArg Outcome.ending batch)
    obtain ⟨labels, run, untold, same⟩ := (path.trans rest).exposed
    refine ⟨labels, t', run, untold, ended, ?_⟩
    rw [quiet, batch]
    refine same.trans ?_
    simp only [Harvest.Batch.run, callsIn_append, callsIn_givenUp]
    rfl

end

end Schedule

end Harvest
