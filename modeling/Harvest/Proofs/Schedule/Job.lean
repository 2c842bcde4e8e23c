import Harvest.Proofs.Schedule.Context

namespace Harvest

def Ending.taskEnd? {α : Type} : Ending α → Option (Schedule.TaskEnd α)
  | .done a => some (.returned a)
  | .failed f => some (.raised (.failure f))
  | .waiting | .exhausted => none

def Plan.channel (p : Plan) : Schedule.Channel :=
  ⟨p.clientName, .str p.endpointId, p.pagination.strategy.next⟩

namespace Schedule

variable {σ : Type}

structure JobState where
  plan : Plan
  firsts : Except Failure (List (Value × Call))
  batch : Option (Batch ContextState Traversal.Fetched)

abbrev JobTask := Task JobState (List Item)

namespace JobTask

def fresh (p : Plan) (firsts : Except Failure (List (Value × Call))) : JobTask :=
  Task.fresh ⟨p, firsts, none⟩

def ofJob (job : Fetch.Job) : JobTask :=
  fresh job.plan job.begin.firsts

/-- What a job makes of the pages of all contexts. The state in which it finds the hooks is left
open. -/
def Extracts (s : Surroundings σ) (p : Plan) (typeName : Value) (fetched : List Traversal.Fetched)
    (events : List Event) (e : TaskEnd (List Item)) : Prop :=
  ∃ w, (Fetch.finish s.adjust p typeName fetched w).events = events ∧
    (Fetch.finish s.adjust p typeName fetched w).ending.taskEnd? = some e

abbrev Owning (s : Surroundings σ) (typeName : Value) (p : Plan) :=
  Owner.Step (ContextTask.Step s p.channel) (Extracts s p typeName)

inductive Step (s : Surroundings σ) (adapter typeName : Value) :
    JobTask → OwnerLabel (List Event) → JobTask → Prop where
  | unbegun {p firsts} :
    Step s adapter typeName ⟨⟨p, firsts, none⟩, true, none⟩ (.own [])
      ⟨⟨p, firsts, none⟩, true, some (.raised .cancellation)⟩
  | unfilled {p f} :
    Step s adapter typeName ⟨⟨p, .error f, none⟩, false, none⟩ (.own [Fetch.traversing adapter p])
      ⟨⟨p, .error f, none⟩, false, some (.raised (.failure f))⟩
  | begun {p firsts} :
    Step s adapter typeName ⟨⟨p, .ok firsts, none⟩, false, none⟩ (.own [Fetch.traversing adapter p])
      ⟨⟨p, .ok firsts, some (.start (firsts.map ContextTask.fresh))⟩, false, none⟩
  | owning {p firsts b told l b' told' e}
      (h : Owning s typeName p ⟨b, told, none⟩ l ⟨b', told', e⟩) :
    Step s adapter typeName ⟨⟨p, firsts, some b⟩, told, none⟩ l ⟨⟨p, firsts, some b'⟩, told', e⟩

theorem Step.running {s : Surroundings σ} {adapter typeName : Value} {t t' : JobTask}
    {l : OwnerLabel (List Event)} (h : Step s adapter typeName t l t') : t.ended = none := by
  cases h <;> rfl

/-- How far a job can have come: it has not run; it was told to give up before it ran; its calls
could not be filled; or it owns the batch of its contexts. -/
inductive Course (s : Surroundings σ) (adapter typeName : Value) (p : Plan)
    (firsts : Except Failure (List (Value × Call))) :
    List (Option (OwnerLabel (List Event))) → JobTask → Prop where
  | fresh : Course s adapter typeName p firsts [] (fresh p firsts)
  | told {labels ended} (quiet : ∀ l ∈ labels, l = none ∨ l = some (.own []))
      (told : none ∈ labels) (cancelled : ∀ e, ended = some e → e = .raised .cancellation) :
    Course s adapter typeName p firsts labels ⟨⟨p, firsts, none⟩, true, ended⟩
  | unfilled {labels told f} (fault : firsts = .error f) (quiet : ∀ l ∈ labels, l = none) :
    Course s adapter typeName p firsts (some (.own [Fetch.traversing adapter p]) :: labels)
      ⟨⟨p, firsts, none⟩, told, some (.raised (.failure f))⟩
  | owning {labels filled b told ended} (all : firsts = .ok filled)
      (run : Steps (Exposed (Owning s typeName p)) (Owner.start (filled.map ContextTask.fresh)) labels
        ⟨b, told, ended⟩) :
    Course s adapter typeName p firsts (some (.own [Fetch.traversing adapter p]) :: labels)
      ⟨⟨p, firsts, some b⟩, told, ended⟩

variable {s : Surroundings σ} {adapter typeName : Value} {p : Plan}
  {firsts : Except Failure (List (Value × Call))} {labels : List (Option (OwnerLabel (List Event)))}
  {t t' : JobTask}

theorem Course.tell (course : Course s adapter typeName p firsts labels t) :
    Course s adapter typeName p firsts (labels ++ [none]) t.tell := by
  cases course with
  | fresh => exact .told (by simp) (by simp) (by rintro e ⟨⟩)
  | told quiet told cancelled =>
    refine .told ?_ (by simp) cancelled
    intro l member
    rcases List.mem_append.1 member with old | new
    · exact quiet l old
    · simp_all
  | unfilled fault quiet =>
    refine .unfilled fault ?_
    intro l member
    rcases List.mem_append.1 member with old | new
    · exact quiet l old
    · simpa using new
  | owning all run => exact .owning all (run.snoc (.tell _))

theorem Course.step (course : Course s adapter typeName p firsts labels t)
    {l : OwnerLabel (List Event)} (h : Step s adapter typeName t l t') :
    Course s adapter typeName p firsts (labels ++ [some l]) t' := by
  cases course with
  | fresh =>
    cases h with
    | unfilled => exact .unfilled rfl (by simp)
    | begun => exact .owning rfl .nil
  | told quiet told cancelled =>
    cases h with
    | unbegun =>
      refine .told ?_ (by simp [told]) (by rintro e ⟨⟩; rfl)
      intro l member
      rcases List.mem_append.1 member with old | new
      · exact quiet l old
      · simp_all
  | unfilled => cases h
  | owning all run =>
    cases h with
    | owning h => exact .owning all (run.snoc (.step h))

theorem course_of_run
    (run : Steps (Exposed (Step s adapter typeName)) (fresh p firsts) labels t) :
    Course s adapter typeName p firsts labels t := by
  refine run.invariant Course.fresh ?_
  intro labels t l t' course h
  cases h with
  | step h => exact course.step h
  | tell => exact course.tell

end JobTask

abbrev TraversalRun (s : Surroundings σ) (ch : Channel) (firsts : List (Value × Call)) :=
  Steps (Exposed (Owner.Step (ContextTask.Step s ch) fun fetched events e =>
      events = [] ∧ e = TaskEnd.returned fetched))
    (Owner.start (firsts.map ContextTask.fresh))

/-- Runs of the fetch of one request that is bound to a plan. -/
abbrev RequestRun (s : Surroundings σ) (adapter typeName : Value) (p : Plan)
    (firsts : Except Failure (List (Value × Call))) :=
  Steps (Exposed (JobTask.Step s adapter typeName)) (JobTask.fresh p firsts)

abbrev ResourceStep (s : Surroundings σ) (adapter typeName : Value) :=
  Owner.Step (JobTask.Step s adapter typeName) fun items events e =>
    events = [] ∧ e = TaskEnd.returned items.flatten

/-- Runs of the fetch of all requests of a resource type. -/
abbrev ResourceRun (s : Surroundings σ) (adapter typeName : Value) (jobs : List Fetch.Job) :=
  Steps (Exposed (ResourceStep s adapter typeName)) (Owner.start (jobs.map JobTask.ofJob))

def plainPlan : Plan where
  request := ⟨⟨⟨⟨none, none, .null, none, none⟩, "/a", .get, none⟩, .endpointTarget, [], ["path"]⟩,
    Transformation.plain, []⟩
  endpoint := ⟨⟨⟨none, none, .null, none, some "none"⟩, "/a", .get, some "main"⟩, true⟩
  clientName := "main"
  pagination := .single
  call := ⟨"/a", .get, [], [], .null⟩

def partPlan : Plan where
  request := ⟨⟨⟨⟨none, none, .null, none, none⟩, "/b/{x.y}", .get, none⟩, .endpointTarget, [],
    ["path"]⟩, Transformation.plain, []⟩
  endpoint := ⟨⟨⟨none, none, .null, none, some "none"⟩, "/b/{x.y}", .get, some "main"⟩, true⟩
  clientName := "main"
  pagination := .single
  call := ⟨"/b/{x.y}", .get, [], [], .null⟩

def partDefinitions : Registry.Definitions where
  adapterName := .str "shop"
  defaultClient := "main"
  clients := [("main", ⟨[(("/a", .get),
      ⟨⟨⟨none, none, .null, none, none⟩, true⟩, .endpointEntry, [], ["readonly"]⟩),
    (("/b/{x.y}", .get),
      ⟨⟨⟨none, none, .null, none, none⟩, true⟩, .endpointEntry, [], ["readonly"]⟩)]⟩)]
  requests := ⟨[("T", [⟨plainPlan.request, .request, [], ["endpoint"]⟩,
      ⟨partPlan.request, .request, [], ["endpoint"]⟩]),
    ("U", [⟨partPlan.request, .request, [], ["endpoint"]⟩])]⟩
  paginations := .empty

def anyAnswers : Surroundings Unit :=
  ⟨fun _ _ _ => True, fun _ _ w => (.error (.collaborator "no hook"), w)⟩

end Schedule

end Harvest
