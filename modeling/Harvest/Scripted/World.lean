import Harvest.Fetch
import Harvest.Scripted.Action
import Harvest.Scripted.Client

namespace Harvest.Scripted

structure World where
  clients : List (String × Script)
  uses : List Nat

namespace World

def reply (client : String) (call : Call) (w : World) : Reply × World :=
  let script := (Members.get? w.clients client).getD []
  let (reply, script) := takeReply script call.path
  (reply, { w with clients := Members.put w.clients client script })

def adjust (actions : List Action) (hook : Hook) (c : Candidate) (w : World) :
    Except Failure Adjusted × World :=
  let n := w.uses.getD hook.id 0
  let result := match actions[hook.id]? with
    | some action => action.run n c
    | none => .error .misfit
  (result, { w with uses := w.uses.set hook.id (n + 1) })

def size (w : World) : Nat :=
  (w.clients.map fun c => Scripted.size c.2).foldl (· + ·) 0

end World

def collaborators (actions : List Action) : Collaborators World where
  execute := World.reply
  adjust := World.adjust actions

end Harvest.Scripted
