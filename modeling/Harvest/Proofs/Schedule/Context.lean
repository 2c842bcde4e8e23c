import Harvest.Fetch
import Harvest.Proofs.Schedule.Batch

namespace Harvest.Schedule

/-- What tasks meet with: what a client may answer to a call, and what hooks make of candidates. -/
structure Surroundings (σ : Type) where
  answers : String → Call → Reply → Prop
  adjust : Adjuster σ

structure Channel where
  client : String
  endpoint : Value
  continuation : Pagination.Continuation

inductive ContextState where
  | fresh (first : Value × Call)
  | waiting (t : Traversal)

abbrev ContextTask := Task ContextState Traversal.Fetched

namespace Channel

def opened (ch : Channel) (first : Value × Call) : List Event × ContextTask :=
  match Traversal.opening first with
  | .error f => ([], ⟨.fresh first, false, some (.raised (.failure f))⟩)
  | .ok names =>
    ([.notice (.traversalStarted ch.endpoint names), .called ch.client first.2],
      ⟨.waiting (.start first.1 first.2), false, none⟩)

def received (ch : Channel) (t : Traversal) (page : Page) : List Event × ContextTask :=
  match t.receive ch.endpoint ch.continuation page with
  | (events, .goOn next) => (events ++ [.called ch.client next.current], ⟨.waiting next, false, none⟩)
  | (events, .finished pages) =>
    (events, ⟨.waiting t, false, some (.returned ⟨t.context, pages⟩)⟩)
  | (events, .broken f) => (events, ⟨.waiting t, false, some (.raised (.failure f))⟩)

def givenUp (ch : Channel) : ContextState → List Event
  | .fresh _ => []
  | .waiting _ => [.cancelled ch.client]

end Channel

namespace ContextTask

def fresh (first : Value × Call) : ContextTask :=
  Task.fresh (.fresh first)

variable {σ : Type}

inductive Step (s : Surroundings σ) (ch : Channel) :
    ContextTask → List Event → ContextTask → Prop where
  | opened {first} :
    Step s ch ⟨.fresh first, false, none⟩ (ch.opened first).1 (ch.opened first).2
  | page {t page} (answer : s.answers ch.client t.current (.page page)) :
    Step s ch ⟨.waiting t, false, none⟩ (ch.received t page).1 (ch.received t page).2
  | failed {t f} (answer : s.answers ch.client t.current (.failed f)) :
    Step s ch ⟨.waiting t, false, none⟩
      [.notice (.traversalFailed ch.endpoint t.pages.length f)]
      ⟨.waiting t, false, some (.raised (.failure f))⟩
  | cancelled {state} :
    Step s ch ⟨state, true, none⟩ (ch.givenUp state) ⟨state, true, some (.raised .cancellation)⟩

theorem Step.running {s : Surroundings σ} {ch : Channel} {t t' : ContextTask} {events : List Event}
    (h : Step s ch t events t') : t.ended = none := by
  cases h <;> rfl

end ContextTask

end Harvest.Schedule
