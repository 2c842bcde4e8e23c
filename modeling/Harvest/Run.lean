import Harvest.History
import Harvest.Notice
import Harvest.Page

namespace Harvest

inductive Event where
  | notice (n : Notice)
  | called (client : String) (call : Call)
  | consulted (history : History) (current : Call) (page : Page)
  | cancelled (client : String)

inductive Ending (α : Type) where
  | done (a : α)
  | failed (f : Failure)
  | waiting
  | exhausted

structure Outcome (σ α : Type) where
  world : σ
  events : List Event
  ending : Ending α

/-- A run changes the world, the state of the collaborators, and leaves events in their order. It
ends with a result, with a failure, in waiting for an answer that does not come, or with the allowed
number of calls used up. -/
abbrev Run (σ α : Type) := σ → Outcome σ α

namespace Run

variable {σ α β : Type}

def done (a : α) : Run σ α := fun w =>
  ⟨w, [], .done a⟩

def fail (f : Failure) : Run σ α := fun w =>
  ⟨w, [], .failed f⟩

def emit (events : List Event) : Run σ Unit := fun w =>
  ⟨w, events, .done ()⟩

def andThen (first : Run σ α) (next : α → Run σ β) : Run σ β := fun w =>
  match first w with
  | ⟨w, events, .done a⟩ =>
    let second := next a w
    { second with events := events ++ second.events }
  | ⟨w, events, .failed f⟩ => ⟨w, events, .failed f⟩
  | ⟨w, events, .waiting⟩ => ⟨w, events, .waiting⟩
  | ⟨w, events, .exhausted⟩ => ⟨w, events, .exhausted⟩

instance : Monad (Run σ) where
  pure := done
  bind := andThen

def ofExcept : Except Failure α → Run σ α
  | .ok a => done a
  | .error f => fail f

def ofNoted (a : Noted α) : Run σ α := fun w =>
  ⟨w, a.notices.map .notice, match a.result with
    | .ok v => .done v
    | .error f => .failed f⟩

end Run

end Harvest
