import Harvest.Traversal

namespace Harvest.Scripted

abbrev Script := List (String × List Reply)

def noReply : Reply :=
  .page ⟨.obj [], 200, []⟩

def takeReply (script : Script) (path : String) : Reply × Script :=
  match Members.get? script path with
  | some (reply :: rest) => (reply, Members.put script path rest)
  | _ => (noReply, script)

def size (script : Script) : Nat :=
  (script.map (·.2.length)).foldl (· + ·) 0

/-- A continuation that gives prepared calls, whatever the pages are. Each of them is one that was
read or the failure of its reading. -/
def continuation (prepared : List (Option (Except Failure Call))) : Pagination.Continuation :=
  fun history _ _ =>
    match prepared[history.pagesFetched - 1]? with
    | some (some (.ok call)) => pure (some call)
    | some (some (.error f)) => Noted.fail f
    | _ => pure none

end Harvest.Scripted
