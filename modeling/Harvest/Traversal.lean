import Harvest.Batch
import Harvest.Pagination.Strategy

namespace Harvest

inductive Reply where
  | page (p : Page)
  | failed (f : Failure)
  | silent

structure Traversal where
  context : Value
  calls : List Call
  current : Call
  pages : List Page

namespace Traversal

def contextNames (context : Value) : Except Failure (List Value) :=
  match context.sorted? with
  | some names => .ok names
  | none => .error .misfit

/-- What a traversal needs before its first call: that the call can be written, so that later ones
can be compared with it, and the names that the context binds. -/
def opening (first : Value × Call) : Except Failure (List Value) :=
  if first.2.isWritable then contextNames first.1 else .error .unreadable

def start (context : Value) (call : Call) : Traversal :=
  ⟨context, [call], call, []⟩

def history (t : Traversal) : History :=
  ⟨t.context, t.calls⟩

def seen (t : Traversal) (call : Call) : Bool :=
  t.calls.any (·.fingerprint == call.fingerprint)

def advance (t : Traversal) (page : Page) (next : Call) : Traversal :=
  ⟨t.context, t.calls ++ [next], next, t.pages ++ [page]⟩

inductive Step where
  | goOn (t : Traversal)
  | finished (pages : List Page)
  | broken (f : Failure)

/-- Takes the page of the call that is out. A next call that cannot be written has no fingerprint to
compare with those of the earlier calls, and breaks the traversal. -/
def receive (endpoint : Value) (continuation : Pagination.Continuation) (t : Traversal)
    (page : Page) : List Event × Step :=
  let index := t.pages.length
  let pages := t.pages ++ [page]
  let asked := continuation t.history page t.current
  let events := .notice (.pageFetched endpoint index page.status) ::
    .consulted t.history t.current page :: asked.notices.map .notice
  match asked.result with
  | .error f => (events, .broken f)
  | .ok none => (events ++ [.notice (.traversalComplete endpoint pages.length)], .finished pages)
  | .ok (some next) =>
    if !next.isWritable then (events, .broken .unreadable)
    else if t.seen next then
      (events ++ [.notice (.loopDetected endpoint index),
        .notice (.traversalComplete endpoint pages.length)], .finished pages)
    else (events, .goOn (t.advance page next))

variable {σ : Type}

abbrev Client (σ : Type) := Call → σ → Reply × σ

def run (client : String) (execute : Client σ) (endpoint : Value)
    (continuation : Pagination.Continuation) : Nat → Traversal → Run σ (List Page)
  | 0, _, w => ⟨w, [], .exhausted⟩
  | limit + 1, t, w =>
    let (reply, w) := execute t.current w
    let called := Event.called client t.current
    match reply with
    | .silent => ⟨w, [called], .waiting⟩
    | .failed f =>
      ⟨w, [called, .notice (.traversalFailed endpoint t.pages.length f)], .failed f⟩
    | .page page =>
      let (events, step) := t.receive endpoint continuation page
      match step with
      | .finished pages => ⟨w, called :: events, .done pages⟩
      | .broken f => ⟨w, called :: events, .failed f⟩
      | .goOn next =>
        let rest := run client execute endpoint continuation limit next w
        { rest with events := called :: events ++ rest.events }

structure Fetched where
  context : Value
  pages : List Page

def fetch (client : String) (execute : Client σ) (endpoint : Value)
    (continuation : Pagination.Continuation) (limit : Nat) (first : Value × Call) :
    Run σ Fetched := do
  let names ← Run.ofExcept (opening first)
  Run.emit [.notice (.traversalStarted endpoint names)]
  let pages ← run client execute endpoint continuation limit (start first.1 first.2)
  return ⟨first.1, pages⟩

def firstCalls (call : Call) (contexts : List Value) : Except Failure (List (Value × Call)) :=
  contexts.mapM fun context => (call.substitute context).map (context, ·)

/-- Traverses all contexts that a value lists. No call is made unless the first calls of all of them
can be filled. -/
def fetchAll (client : String) (execute : Client σ) (endpoint : Value)
    (continuation : Pagination.Continuation) (limit : Nat) (call : Call) (contexts : Value) :
    Run σ (List Fetched) := do
  let firsts ← Run.ofExcept (contexts.iterated >>= firstCalls call)
  Batch.run client (firsts.map (fetch client execute endpoint continuation limit))

end Traversal

end Harvest
