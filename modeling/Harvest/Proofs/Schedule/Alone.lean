import Harvest.Proofs.Alone
import Harvest.Proofs.Schedule.Job

namespace Harvest.Schedule

variable {σ : Type} {s : Surroundings σ} {serve : String → Call → Page}

/-- Clients never fail, and the page depends on nothing but the call. -/
def Surroundings.Serves (s : Surroundings σ) (serve : String → Call → Page) : Prop :=
  ∀ client call reply, s.answers client call reply → reply = .page (serve client call)

namespace Owner

variable {κ α β L : Type} {child : Task κ α → L → Task κ α → Prop}
  {close : List α → List Event → TaskEnd β → Prop} {tasks : List (Task κ α)}
  {labels : List (Option (OwnerLabel L))} {o : Owner κ α β}

def Returns (child : Task κ α → L → Task κ α → Prop) (t : Task κ α) (a : α) : Prop :=
  ∃ labels t', Steps (Exposed child) t labels t' ∧ t'.ended = some (.returned a)

theorem Inv.returned (inv : Inv child close tasks labels o) {results : List α}
    (all : o.state.results? = some results) : List.Forall₂ (Returns child) tasks results := by
  have ended := Batch.results?_eq_some all
  refine List.forall₂_of_length_eq_of_get ?_ ?_
  · rw [← inv.length]
    simpa using congrArg List.length ended
  · intro n inTasks inResults
    obtain ⟨t', found, run⟩ := inv.tasks n _ (List.getElem?_eq_getElem inTasks)
    refine ⟨_, t', run, ?_⟩
    have here := congrArg (·[n]?) ended
    simpa [found, inResults] using here

theorem Inv.untold (inv : Inv child close tasks labels o) (untold : none ∉ labels) {e : TaskEnd β}
    (ended : o.ended = some e) :
    (∃ n t t' f, tasks[n]? = some t ∧ Steps (Exposed child) t (labelsAt n labels) t' ∧
      t'.ended = some (.raised (.failure f))) ∨
    ∃ results events, List.Forall₂ (Returns child) tasks results ∧ close results events e := by
  rcases inv.closing e ended with ⟨c, given, -, -⟩ | ⟨-, results, events, all, h⟩
  · cases c with
    | failure f =>
      obtain ⟨n, t, t', started, run, failed⟩ := inv.failing given
      exact .inl ⟨n, t, t', f, started, run, failed⟩
    | cancellation =>
      obtain ⟨before, after, rfl, told⟩ := inv.cancellation given
      exact absurd (List.mem_append_left _ told) untold
  · exact .inr ⟨results, events, inv.returned all, h⟩

end Owner

abbrev Channel.alone (ch : Channel) (serve : String → Call → Page) (first : Value × Call)
    (limit : Nat) : Run σ Traversal.Fetched :=
  Traversal.fetch ch.client (serving serve ch.client) ch.endpoint ch.continuation limit first

namespace ContextTask

variable {ch : Channel} {first : Value × Call} {t t' : ContextTask}

inductive Alone (σ : Type) (serve : String → Call → Page) (ch : Channel) (first : Value × Call) :
    ContextTask → Prop where
  | fresh {told} : Alone σ serve ch first ⟨.fresh first, told, none⟩
  | waiting {t told names k} (opened : Traversal.opening first = .ok names)
      (context : t.context = first.1)
      (leads : Traversal.Leads σ serve ch.client ch.endpoint ch.continuation
        (.start first.1 first.2) t k) :
    Alone σ serve ch first ⟨.waiting t, told, none⟩
  | returned {state told fetched}
      (settles : Run.Settles (σ := σ) (ch.alone serve first) (.done fetched)) :
    Alone σ serve ch first ⟨state, told, some (.returned fetched)⟩
  | failed {state told f} (settles : Run.Settles (σ := σ) (ch.alone serve first) (.failed f)) :
    Alone σ serve ch first ⟨state, told, some (.raised (.failure f))⟩
  | cancelled {state told} :
    Alone σ serve ch first ⟨state, told, some (.raised .cancellation)⟩

theorem Alone.tell (alone : Alone σ serve ch first t) : Alone σ serve ch first t.tell := by
  cases alone with
  | fresh => exact .fresh
  | waiting opened context leads => exact .waiting opened context leads
  | returned settles => exact .returned settles
  | failed settles => exact .failed settles
  | cancelled => exact .cancelled

theorem alone_opened (serve : String → Call → Page) (ch : Channel) (first : Value × Call) :
    Alone σ serve ch first (ch.opened first).2 := by
  unfold Channel.opened
  split
  next f fault => exact .failed (Traversal.fetch_unopened fault)
  next names opened => exact .waiting opened rfl (.refl _)

theorem alone_received {t : Traversal} {names : List Value} {k : Nat}
    (opened : Traversal.opening first = .ok names) (context : t.context = first.1)
    (leads : Traversal.Leads σ serve ch.client ch.endpoint ch.continuation
      (.start first.1 first.2) t k) :
    Alone σ serve ch first (ch.received t (serve ch.client t.current)).2 := by
  unfold Channel.received
  split
  next events next step =>
    have kept : next.context = first.1 := by
      obtain ⟨call, -, -, -, rfl⟩ := Traversal.receive_goOn (by rw [step])
      exact context
    exact .waiting opened kept (leads.goOn (by rw [step]))
  next events pages step =>
    rw [context]
    exact .returned (Traversal.fetch_settles opened (leads.finished (by rw [step])))
  next events f step =>
    exact .failed (Traversal.fetch_settles opened (leads.broken (by rw [step])))

theorem Alone.step (serves : s.Serves serve) (alone : Alone σ serve ch first t)
    {events : List Event} (h : Step s ch t events t') : Alone σ serve ch first t' := by
  cases h with
  | opened =>
    cases alone
    exact alone_opened serve ch first
  | page answer =>
    cases alone with
    | waiting opened context leads =>
      cases serves _ _ _ answer
      exact alone_received opened context leads
  | failed answer => cases serves _ _ _ answer
  | cancelled => exact .cancelled

theorem alone_of_run (serves : s.Serves serve) {labels : List (Option (List Event))}
    (run : Steps (Exposed (Step s ch)) (fresh first) labels t) : Alone σ serve ch first t := by
  induction run with
  | nil => exact .fresh
  | snoc _ last ih =>
    cases last with
    | step h => exact ih.step serves h
    | tell => exact ih.tell

theorem settles_of_returns (serves : s.Serves serve) {fetched : Traversal.Fetched}
    (returns : Owner.Returns (Step s ch) (fresh first) fetched) :
    Run.Settles (σ := σ) (ch.alone serve first) (.done fetched) := by
  obtain ⟨labels, t, run, ended⟩ := returns
  have alone := alone_of_run serves run
  obtain ⟨state, told, e⟩ := t
  cases ended
  cases alone with
  | returned settles => exact settles

theorem settles_of_failed (serves : s.Serves serve) {labels : List (Option (List Event))}
    (run : Steps (Exposed (Step s ch)) (fresh first) labels t) {f : Failure}
    (failed : t.ended = some (.raised (.failure f))) :
    Run.Settles (σ := σ) (ch.alone serve first) (.failed f) := by
  have alone := alone_of_run serves run
  obtain ⟨state, told, e⟩ := t
  cases failed
  cases alone with
  | failed settles => exact settles

end ContextTask

namespace JobTask

variable {definitions : Registry.Definitions} {pool adapter : Value} {typeName : String}
  {request : Request} {job : Fetch.Job} {labels : List (Option (OwnerLabel (List Event)))}
  {t : JobTask}
  (made : (Plan.make definitions request).result = .ok job.plan)
  (combined : (Pool.contexts pool (job.plan.roots.map .named)).result = .ok job.contexts)

include made combined

theorem settles_of_results (serves : s.Serves serve) {filled : List (Value × Call)}
    (all : job.begin.firsts = .ok filled) {fetched : List Traversal.Fetched}
    (returned : List.Forall₂ (Owner.Returns (ContextTask.Step s job.plan.channel))
      (filled.map ContextTask.fresh) fetched)
    {ending : Ending (List Item)}
    (finished : ∀ w, (Fetch.finish s.adjust job.plan (.str typeName) fetched w).ending = ending) :
    Run.Settles (Fetch.requestAlone definitions serve s.adjust pool typeName request) ending := by
  refine Fetch.requestAlone_settles made combined all ?_ finished
  exact (List.forall₂_map_left_iff.1 returned).imp fun first entry =>
    ContextTask.settles_of_returns serves

omit made combined in
theorem told_of_cancelled {typeName : Value}
    (run : Steps (Exposed (Step s adapter typeName)) (ofJob job) labels t)
    (cancelled : t.ended = some (.raised .cancellation)) : none ∈ labels := by
  cases course_of_run run with
  | fresh => cases cancelled
  | told quiet told => exact told
  | unfilled => cases cancelled
  | owning all inner =>
    have inv := Owner.inv_of_run ContextTask.Step.running inner
    rcases inv.closing _ cancelled with ⟨c, given, -, raised⟩ | ⟨-, fetched, events, -, w, -, ending⟩
    · cases raised
      obtain ⟨before, after, rfl, told⟩ := inv.cancellation given
      exact List.mem_cons_of_mem _ (List.mem_append_left _ told)
    · generalize (Fetch.finish s.adjust job.plan typeName fetched w).ending = finished at ending
      cases finished <;> cases ending

theorem settles_of_returns (serves : s.Serves serve)
    (stateless : Extraction.Stateless s.adjust job.plan.request) {items : List Item}
    (returns : Owner.Returns (Step s adapter (.str typeName)) (ofJob job) items) :
    Run.Settles (Fetch.requestAlone definitions serve s.adjust pool typeName request)
      (.done items) := by
  obtain ⟨labels, t, run, ended⟩ := returns
  cases course_of_run run with
  | fresh => cases ended
  | told quiet told cancelled => cases cancelled _ ended
  | unfilled => cases ended
  | owning all inner =>
    have inv := Owner.inv_of_run ContextTask.Step.running inner
    rcases inv.closing _ ended with ⟨c, -, -, raised⟩ | ⟨-, fetched, events, results, w, -, ending⟩
    · cases raised
    · obtain ⟨result, steady⟩ := Fetch.finish_steady stateless (.str typeName) fetched
      rw [steady w] at ending
      cases result with
      | ok items' =>
        cases ending
        exact settles_of_results made combined serves all (inv.returned results) steady
      | error f => cases ending

theorem fails_of_failed (serves : s.Serves serve)
    (stateless : Extraction.Stateless s.adjust job.plan.request)
    (run : Steps (Exposed (Step s adapter (.str typeName))) (ofJob job) labels t) {f : Failure}
    (failed : t.ended = some (.raised (.failure f))) :
    Run.Fails (Fetch.requestAlone definitions serve s.adjust pool typeName request) := by
  cases course_of_run run with
  | fresh => cases failed
  | told quiet told cancelled => cases cancelled _ failed
  | unfilled fault =>
    exact Fetch.requestAlone_fails made combined (Traversal.fetchAll_unfilled fault)
  | owning all inner =>
    have inv := Owner.inv_of_run ContextTask.Step.running inner
    rcases inv.closing _ failed with
      ⟨c, given, -, raised⟩ | ⟨-, fetched, events, results, w, -, ending⟩
    · cases raised
      obtain ⟨n, u, u', started, lone, broken⟩ := inv.failing given
      rw [List.getElem?_map] at started
      obtain ⟨first, found, rfl⟩ := Option.map_eq_some_iff.1 started
      have filled : ((Value.arr (job.contexts.map .obj)).iterated >>=
          Traversal.firstCalls job.plan.call) = .ok _ := all
      exact Fetch.requestAlone_fails made combined (Traversal.fetchAll_fails filled
        (List.mem_of_getElem? found) (ContextTask.settles_of_failed serves lone broken))
    · obtain ⟨result, steady⟩ := Fetch.finish_steady stateless (.str typeName) fetched
      rw [steady w] at ending
      cases result with
      | ok items => cases ending
      | error f' =>
        exact (settles_of_results made combined serves all (inv.returned results) steady).fails

end JobTask

end Harvest.Schedule
