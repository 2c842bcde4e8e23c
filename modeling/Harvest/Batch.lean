import Harvest.Run

namespace Harvest.Batch

variable {σ α : Type}

structure Settled (σ α : Type) where
  world : σ
  events : List Event
  endings : List (Ending α)

/-- Runs the tasks in their order, each one until it ends or waits. All of them have been started,
so a failure does not keep the later ones from running. -/
def runAll : List (Run σ α) → σ → Settled σ α
  | [], w => ⟨w, [], []⟩
  | task :: rest, w =>
    let first := task w
    let others := runAll rest first.world
    ⟨others.world, first.events ++ others.events, first.ending :: others.endings⟩

def firstFailure? : List (Ending α) → Option Failure
  | [] => none
  | .failed f :: _ => some f
  | _ :: rest => firstFailure? rest

def hasWaiting (endings : List (Ending α)) : Bool :=
  endings.any fun
    | .waiting => true
    | _ => false

def countWaiting (endings : List (Ending α)) : Nat :=
  endings.countP fun
    | .waiting => true
    | _ => false

def results? : List (Ending α) → Option (List α)
  | [] => some []
  | .done a :: rest => (results? rest).map (a :: ·)
  | _ :: _ => none

def join (endings : List (Ending α)) : Ending (List α) :=
  match firstFailure? endings with
  | some f => .failed f
  | none =>
    match results? endings with
    | some results => .done results
    | none => if hasWaiting endings then .waiting else .exhausted

def givenUp (client : String) (endings : List (Ending α)) : List Event :=
  match firstFailure? endings with
  | some _ => List.replicate (countWaiting endings) (.cancelled client)
  | none => []

def run (client : String) (tasks : List (Run σ α)) : Run σ (List α) := fun w =>
  let settled := runAll tasks w
  ⟨settled.world, settled.events ++ givenUp client settled.endings, join settled.endings⟩

end Harvest.Batch
