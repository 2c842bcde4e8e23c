import Harvest.Proofs.Extraction
import Harvest.Proofs.Schedule.Job
import Harvest.Proofs.Traversal

namespace Harvest.Schedule

variable {σ κ α β L : Type}

def calls (shown : L → List Event) (labels : List (Option L)) : List (String × Call) :=
  labels.flatMap fun l => callsIn ((l.map shown).getD [])

@[simp] theorem calls_nil (shown : L → List Event) : calls shown [] = [] := rfl

@[simp] theorem calls_cons (shown : L → List Event) (l : Option L) (labels : List (Option L)) :
    calls shown (l :: labels) = callsIn ((l.map shown).getD []) ++ calls shown labels := by
  simp [calls]

@[simp] theorem calls_append (shown : L → List Event) (first second : List (Option L)) :
    calls shown (first ++ second) = calls shown first ++ calls shown second := by
  simp [calls]

theorem calls_map_some (shown : L → List Event) (labels : List L) :
    calls shown (labels.map some) = callsIn (labels.flatMap shown) := by
  induction labels with
  | nil => rfl
  | cons l rest ih => simp [ih]

abbrev batchCalls : List (Option (OwnerLabel (List Event))) → List (String × Call) :=
  calls (OwnerLabel.events id)

abbrev resourceCalls : List (Option (OwnerLabel (OwnerLabel (List Event)))) → List (String × Call) :=
  calls (OwnerLabel.events (OwnerLabel.events id))

theorem Owner.call_of_run {child : Task κ α → L → Task κ α → Prop}
    {close : List α → List Event → TaskEnd β → Prop} {shown : L → List Event}
    (live : ∀ {t l t'}, child t l t' → t.ended = none)
    (silent : ∀ results events e, close results events e → callsIn events = [])
    {tasks : List (Task κ α)} {labels : List (Option (OwnerLabel L))} {o : Owner κ α β}
    (run : Steps (Exposed (Owner.Step child close)) (Owner.start tasks) labels o)
    {x : String × Call} (member : x ∈ calls (OwnerLabel.events shown) labels) :
    ∃ n < tasks.length, x ∈ calls shown (labelsAt n labels) := by
  induction run with
  | nil => simp at member
  | @snoc labels o l o' run last ih =>
    rw [calls_append, List.mem_append] at member
    rcases member with early | late
    · obtain ⟨n, inside, here⟩ := ih early
      exact ⟨n, inside, by simp [here]⟩
    · have inv := Owner.inv_of_run live run
      cases last with
      | tell => simp at late
      | step h =>
        cases h with
        | @task b told n t l t' found h =>
          have inside : n < tasks.length := inv.length ▸ (List.getElem?_eq_some_iff.1 found).1
          refine ⟨n, inside, ?_⟩
          simp only [calls_cons, calls_nil, OwnerLabel.events_task, Option.map_some,
            Option.getD_some, List.append_nil] at late
          simp [OwnerLabel.at, late]
        | caught => simp at late
        | told => simp at late
        | released => simp at late
        | closed goingOn all h => simp [silent _ _ _ h] at late

namespace ContextTask

variable {s : Surroundings σ} {ch : Channel} {first : Value × Call}
  {labels : List (Option (List Event))}
  {t : ContextTask}

/-- The calls of a context, as far as its traversal has come. -/
def Sent (ch : Channel) (first : Value × Call) (sent : List (String × Call)) : ContextState → Prop
  | .fresh own => own = first ∧ sent = []
  | .waiting t => (∃ names, Traversal.opening first = .ok names) ∧ t.From first ∧
      sent = t.calls.map (ch.client, ·)

theorem Sent.received {sent : List (String × Call)} {tr : Traversal} {page : Page}
    (keeps : Traversal.Keeps ch.continuation) (before : Sent ch first sent (.waiting tr)) :
    Sent ch first (sent ++ callsIn (ch.received tr page).1) (ch.received tr page).2.state := by
  obtain ⟨opening, origin, rfl⟩ := before
  have silent : callsIn (tr.receive ch.endpoint ch.continuation page).1 = [] :=
    Traversal.callsIn_receive
  unfold Channel.received
  split
  next events next received =>
    obtain ⟨origin', grown⟩ := origin.receive keeps (by rw [received])
    rw [received] at silent
    exact ⟨opening, origin', by simp [silent, grown]⟩
  next events pages received =>
    rw [received] at silent
    exact ⟨opening, origin, by simp [silent]⟩
  next events f received =>
    rw [received] at silent
    exact ⟨opening, origin, by simp [silent]⟩

theorem sent_of_run (keeps : Traversal.Keeps ch.continuation)
    (run : Steps (Exposed (ContextTask.Step s ch)) (fresh first) labels t) :
    Sent ch first (calls id labels) t.state := by
  induction run with
  | nil => exact ⟨rfl, rfl⟩
  | @snoc labels t l t' run last ih =>
    cases last with
    | tell => simpa using ih
    | step h =>
      simp only [calls_append, calls_cons, calls_nil, Option.map_some, Option.getD_some,
        List.append_nil, id_eq]
      cases h with
      | opened =>
        obtain ⟨rfl, none_sent⟩ := ih
        rw [none_sent]
        unfold Channel.opened
        split
        · exact ⟨rfl, rfl⟩
        next names opening => exact ⟨⟨names, opening⟩, .start _, rfl⟩
      | page answer => exact ih.received keeps
      | failed answer => simpa using ih
      | @cancelled state =>
        have nothing : callsIn (ch.givenUp state) = [] := by cases state <;> rfl
        simpa [nothing] using ih

end ContextTask

namespace JobTask

variable {s : Surroundings σ} {adapter typeName : Value} {p : Plan}
  {firsts : Except Failure (List (Value × Call))} {labels : List (Option (OwnerLabel (List Event)))}
  {t : JobTask}

theorem extracts_silent {fetched : List Traversal.Fetched} {events : List Event}
    {e : TaskEnd (List Item)} (h : Extracts s p typeName fetched events e) : callsIn events = [] := by
  obtain ⟨w, rfl, -⟩ := h
  have within : (Fetch.finish s.adjust p typeName fetched).Within fun _ => True :=
    Fetch.finish_within (fun _ _ => trivial) (fun _ _ _ _ _ => trivial) p typeName fetched
  exact callsIn_notices (within.events w)

theorem labelsAt_quiet (n : Nat)
    (quiet : ∀ l ∈ labels, l = none ∨ ∃ events, l = some (.own events)) : labelsAt n labels = [] := by
  unfold labelsAt
  rw [List.flatMap_eq_nil_iff]
  intro l member
  rcases quiet l member with rfl | ⟨events, rfl⟩ <;> rfl

theorem calls_quiet {labels : List (Option (OwnerLabel (List Event)))}
    (quiet : ∀ l ∈ labels, l = none ∨ l = some (.own [])) : batchCalls labels = [] := by
  unfold batchCalls calls
  rw [List.flatMap_eq_nil_iff]
  intro l member
  rcases quiet l member with rfl | rfl <;> rfl

theorem Course.call (course : Course s adapter typeName p firsts labels t) {x : String × Call}
    (member : x ∈ batchCalls labels) :
    ∃ filled, firsts = .ok filled ∧
      ∃ n < filled.length, x ∈ calls id (labelsAt n labels) := by
  cases course with
  | fresh => simp [batchCalls] at member
  | told quiet => simp [calls_quiet quiet] at member
  | unfilled fault quiet =>
    have nothing := calls_quiet fun l inside => .inl (quiet l inside)
    simp only [batchCalls] at member nothing
    simp [Fetch.traversing, nothing] at member
  | owning all run =>
    simp only [batchCalls, calls_cons, Option.map_some, Option.getD_some, OwnerLabel.events_own,
      Fetch.traversing, callsIn_cons, call?_notice, Option.toList_none, callsIn_nil,
      List.nil_append] at member
    obtain ⟨n, inside, here⟩ := Owner.call_of_run ContextTask.Step.running
      (fun _ _ _ => extracts_silent) run member
    exact ⟨_, all, n, by simpa using inside, by simpa [OwnerLabel.at] using here⟩

theorem Course.sent (course : Course s adapter typeName p firsts labels t)
    {filled : List (Value × Call)} (all : firsts = .ok filled) {n : Nat} {first : Value × Call}
    (found : filled[n]? = some first) :
    ∃ state, ContextTask.Sent p.channel first (calls id (labelsAt n labels)) state := by
  cases course with
  | fresh => exact ⟨.fresh first, rfl, rfl⟩
  | told quiet =>
    rw [labelsAt_quiet n fun l inside => (quiet l inside).imp_right fun same => ⟨[], same⟩]
    exact ⟨.fresh first, rfl, rfl⟩
  | unfilled fault => rw [all] at fault; cases fault
  | owning same run =>
    cases all.symm.trans same
    have inv := Owner.inv_of_run ContextTask.Step.running run
    obtain ⟨t', -, course⟩ := inv.tasks n (ContextTask.fresh first) (by simp [found])
    have keeps : Traversal.Keeps p.channel.continuation := fun _ _ _ _ => Pagination.next_continues
    exact ⟨t'.state, by simpa [OwnerLabel.at] using ContextTask.sent_of_run keeps course⟩

theorem Course.labelsAt_of_error {f : Failure} (course : Course s adapter typeName p firsts labels t)
    (fault : firsts = .error f) (n : Nat) : labelsAt n labels = [] := by
  cases course with
  | fresh => rfl
  | told quiet =>
    exact labelsAt_quiet n fun l inside => (quiet l inside).imp_right fun same => ⟨[], same⟩
  | unfilled _ quiet =>
    refine labelsAt_quiet n fun l inside => ?_
    rcases List.mem_cons.1 inside with rfl | later
    · exact .inr ⟨_, rfl⟩
    · exact .inl (quiet l later)
  | owning all => rw [all] at fault; cases fault

end JobTask

theorem job_of_run {s : Surroundings σ} {adapter typeName : Value} {jobs : List Fetch.Job}
    {labels : List (Option (OwnerLabel (OwnerLabel (List Event))))}
    {o : Owner JobState (List Item) (List Item)}
    (run : ResourceRun s adapter typeName jobs labels o) {n : Nat} {job : Fetch.Job}
    (found : jobs[n]? = some job) :
    ∃ t, o.state.tasks[n]? = some t ∧
      RequestRun s adapter typeName job.plan job.begin.firsts (labelsAt n labels) t :=
  (Owner.inv_of_run JobTask.Step.running run).tasks n (JobTask.ofJob job) (by simp [found])

theorem call_of_run {s : Surroundings σ} {adapter typeName : Value} {jobs : List Fetch.Job}
    {labels : List (Option (OwnerLabel (OwnerLabel (List Event))))}
    {o : Owner JobState (List Item) (List Item)}
    (run : ResourceRun s adapter typeName jobs labels o) {x : String × Call}
    (member : x ∈ resourceCalls labels) :
    ∃ n job, jobs[n]? = some job ∧ x ∈ batchCalls (labelsAt n labels) := by
  have silent : ∀ (results : List (List Item)) (events : List Event) (e : TaskEnd (List Item)),
      events = [] ∧ e = .returned results.flatten → callsIn events = [] := by
    rintro results events e ⟨rfl, -⟩
    rfl
  obtain ⟨n, inside, here⟩ := Owner.call_of_run JobTask.Step.running silent run member
  rw [List.length_map] at inside
  exact ⟨n, jobs[n], List.getElem?_eq_getElem inside, here⟩

end Harvest.Schedule
