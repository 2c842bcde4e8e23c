import Harvest.Extraction
import Harvest.Plan
import Harvest.Pool
import Harvest.Traversal
import Harvest.Value.Pairs

namespace Harvest

structure Collaborators (σ : Type) where
  execute : String → Traversal.Client σ
  adjust : Adjuster σ

namespace Fetch

variable {σ : Type}

def traverse (c : Collaborators σ) (limit : Nat) (p : Plan) (first : Value × Call) :
    Run σ Traversal.Fetched :=
  Traversal.fetch p.clientName (c.execute p.clientName) (.str p.endpointId)
    p.pagination.strategy.next limit first

def origin (p : Plan) (typeName : Value) : Extraction.Origin :=
  ⟨.str p.clientName, p.endpoint.path, p.endpoint.method, typeName⟩

def under (context : Value) (candidate : Candidate) : Except Failure Candidate := do
  return { candidate with context := .ofPairs (← context.pairs) }

def extract (adjust : Adjuster σ) (p : Plan) (typeName : Value) :
    List Traversal.Fetched → Run σ (List Item)
  | [] => Run.done []
  | fetched :: rest => do
    let first ← Extraction.itemsOf adjust p.request (origin p typeName)
      (under fetched.context) fetched.pages
    let others ← extract adjust p typeName rest
    return first ++ others

def traversing (adapter : Value) (p : Plan) : Event :=
  .notice (.traversing adapter p.endpointId)

def complete (p : Plan) (typeName : Value) (contexts items : Nat) : Event :=
  .notice (.requestComplete p.endpointId typeName contexts items)

def finish (adjust : Adjuster σ) (p : Plan) (typeName : Value) (fetched : List Traversal.Fetched) :
    Run σ (List Item) := do
  let items ← extract adjust p typeName fetched
  Run.emit [complete p typeName fetched.length items.length]
  return items

/-- The request is bound to its endpoint, and the first calls of all contexts are filled, before a
call is made. -/
def request (definitions : Registry.Definitions) (c : Collaborators σ) (limit : Nat)
    (request : Request) (contexts : Value) (typeName : Value) : Run σ (List Item) := do
  let p ← Run.ofNoted (Plan.make definitions request)
  Run.emit [traversing definitions.adapterName p]
  let fetched ← Traversal.fetchAll p.clientName (c.execute p.clientName) (.str p.endpointId)
    p.pagination.strategy.next limit p.call contexts
  finish c.adjust p typeName fetched

structure Job where
  plan : Plan
  contexts : List Fields

def jobs (definitions : Registry.Definitions) (pool : Value) : List Request → Noted (List Job)
  | [] => pure []
  | request :: rest => do
    let p ← Plan.make definitions request
    let contexts ← Pool.contexts pool (p.roots.map .named)
    let others ← jobs definitions pool rest
    return ⟨p, contexts⟩ :: others

structure Begun where
  job : Job
  firsts : Except Failure (List (Value × Call))

def Job.begin (job : Job) : Begun :=
  ⟨job, Traversal.firstCalls job.plan.call (job.contexts.map .obj)⟩

/-- What a job reports when it begins. A job without contexts is complete at once. -/
def Begun.events (adapter typeName : Value) (b : Begun) : List Event :=
  traversing adapter b.job.plan ::
    match b.firsts with
    | .ok [] => [complete b.job.plan typeName 0 0]
    | _ => []

structure Traversed where
  job : Job
  endings : List (Ending Traversal.Fetched)

def traverseAll (c : Collaborators σ) (limit : Nat) : List Begun → σ →
    σ × List Event × List Traversed
  | [], w => (w, [], [])
  | b :: rest, w =>
    let firsts := b.firsts.toOption.getD []
    let settled := Batch.runAll (firsts.map (traverse c limit b.job.plan)) w
    let (w, events, others) := traverseAll c limit rest settled.world
    (w, settled.events ++ events, ⟨b.job, settled.endings⟩ :: others)

def firstUnfilled? (begun : List Begun) : Option Failure :=
  begun.findSome? fun b => match b.firsts with
    | .error f => some f
    | .ok _ => none

/-- The end of one job: its items, or its failure with the round in which it shows. A failing
extraction shows first, a failing context later, and later still if calls of the job have to be
given up. -/
inductive JobEnd where
  | items (items : List Item)
  | failed (round : Nat) (f : Failure)
  | waiting
  | exhausted

def contextRound (endings : List (Ending Traversal.Fetched)) : Nat :=
  if Batch.hasWaiting endings then 2 else 1

def finishJob (c : Collaborators σ) (typeName : Value) (t : Traversed) (w : σ) :
    σ × List Event × JobEnd :=
  match Batch.join t.endings with
  | .failed f => (w, [], .failed (contextRound t.endings) f)
  | .waiting => (w, [], .waiting)
  | .exhausted => (w, [], .exhausted)
  | .done [] => (w, [], .items [])
  | .done fetched =>
    match finish c.adjust t.job.plan typeName fetched w with
    | ⟨w, events, .done items⟩ => (w, events, .items items)
    | ⟨w, events, .failed f⟩ => (w, events, .failed 0 f)
    | ⟨w, events, .waiting⟩ => (w, events, .waiting)
    | ⟨w, events, .exhausted⟩ => (w, events, .exhausted)

def finishAll (c : Collaborators σ) (typeName : Value) : List Traversed → σ →
    σ × List Event × List JobEnd
  | [], w => (w, [], [])
  | t :: rest, w =>
    let (w, events, jobEnd) := finishJob c typeName t w
    let (w, others, ends) := finishAll c typeName rest w
    (w, events ++ others, jobEnd :: ends)

def failureIn? (round : Nat) (ends : List JobEnd) : Option Failure :=
  ends.findSome? fun
    | .failed r f => if r = round then some f else none
    | _ => none

def firstFailure? (ends : List JobEnd) : Option Failure :=
  [0, 1, 2].findSome? fun round => failureIn? round ends

def allItems? : List JobEnd → Option (List Item)
  | [] => some []
  | .items items :: rest => (allItems? rest).map (items ++ ·)
  | _ :: _ => none

def joinJobs (ends : List JobEnd) : Ending (List Item) :=
  match firstFailure? ends with
  | some f => .failed f
  | none =>
    match allItems? ends with
    | some items => .done items
    | none => if ends.any (fun | .waiting => true | _ => false) then .waiting else .exhausted

def givenUp (traversed : List Traversed) : List Event :=
  traversed.flatMap fun t =>
    List.replicate (Batch.countWaiting t.endings) (.cancelled t.job.plan.clientName)

def runJobs (adapter : Value) (c : Collaborators σ) (limit : Nat) (typeName : Value)
    (jobs : List Job) : Run σ (List Item) := fun w =>
  let begun := jobs.map Job.begin
  let opening := begun.flatMap (Begun.events adapter typeName)
  let (w, events, traversed) := traverseAll c limit begun w
  match firstUnfilled? begun with
  | some f => ⟨w, opening ++ events ++ givenUp traversed, .failed f⟩
  | none =>
    let (w, closing, ends) := finishAll c typeName traversed w
    let ending := joinJobs ends
    let cancelled := match ending with
      | .failed _ => givenUp traversed
      | _ => []
    ⟨w, opening ++ events ++ closing ++ cancelled, ending⟩

def requestAll (definitions : Registry.Definitions) (c : Collaborators σ) (limit : Nat)
    (typeName : String) (pool : Value) : Run σ (List Item) := do
  let requests := (definitions.requests.query typeName).map (·.value)
  match ← Run.ofNoted (jobs definitions pool requests) with
  | [] =>
    Run.emit [.notice (.noRequests typeName)]
    return []
  | jobs => runJobs definitions.adapterName c limit (.str typeName) jobs

end Fetch

end Harvest
