import Harvest.Wire.Client

namespace Harvest.Wire

inductive Operation where
  | read
  | execute (call : Call) (exchange : Exchange)
  | close
  | leave
  | lost

/-- A call that cannot be sent is given up before a session is needed for it. -/
def Operation.needsSession : Operation → Bool
  | read => true
  | execute call _ => isSendable call
  | close | leave | lost => false

/-- All sessions that a client has had, each with whether it is open; the last one is the current
one. -/
structure Sessions where
  isOpen : List Bool
deriving DecidableEq

namespace Sessions

def none : Sessions :=
  ⟨[]⟩

def any (s : Sessions) : Bool :=
  !s.isOpen.isEmpty

def current? (s : Sessions) : Option Nat :=
  match s.isOpen.length with
  | 0 => Option.none
  | last + 1 => some last

def currentOpen (s : Sessions) : Bool :=
  s.isOpen.getLast? == some true

def acquire (s : Sessions) : Sessions :=
  if s.currentOpen then s else ⟨s.isOpen ++ [true]⟩

def close (s : Sessions) : Sessions :=
  ⟨s.isOpen.dropLast ++ (s.isOpen.getLast?.map fun _ => false).toList⟩

/-- The sessions after an operation. What comes of a call makes no difference to them. -/
def after (s : Sessions) (operation : Operation) : Sessions :=
  if operation.needsSession then s.acquire
  else match operation with
    | .read | .execute _ _ => s
    | .close | .leave | .lost => s.close

def serving (s : Sessions) (operation : Operation) : Option Nat :=
  if operation.needsSession then (s.after operation).current? else Option.none

def since (operations : List Operation) : Sessions :=
  operations.foldl after none

theorem currentOpen_acquire (s : Sessions) : s.acquire.currentOpen = true := by
  unfold acquire
  split
  · assumption
  · simp [currentOpen]

end Sessions

end Harvest.Wire
