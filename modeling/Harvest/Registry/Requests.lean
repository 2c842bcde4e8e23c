import Harvest.Config.Defaults
import Harvest.Failure
import Harvest.Request

namespace Harvest.Registry

open Config

structure Requests where
  byType : List (String × List (Given Request))

namespace Requests

def empty : Requests :=
  ⟨[]⟩

def query (r : Requests) (typeName : String) : List (Given Request) :=
  (Members.get? r.byType typeName).getD []

def readItems (typeName : String) : Nat → List Value → Except Failure (List (Given Request))
  | _, [] => .ok []
  | n, v :: rest =>
    match Request.read v with
    | .rejected issues =>
      .error (.definition (.invalid ("request definition " ++ typeName ++ "[" ++ toString n ++ "]")
        issues))
    | .ok request =>
      match readItems typeName (n + 1) rest with
      | .ok requests => .ok (request :: requests)
      | .error f => .error f

def readType (defaults : Defaults) (m : String × Value) :
    Except Failure (String × List (Given Request)) :=
  match defaults.laid m.2 with
  | .error _ => .error .shapeless
  | .ok (.arr items) => (readItems m.1 0 items).map (m.1, ·)
  | .ok _ => .error (.definition (.requestsNotListed m.1))

def read (default byType : Value) : Except Failure Requests :=
  match Defaults.make default byType with
  | .error _ => .error .shapeless
  | .ok defaults => (defaults.named.mapM (readType defaults)).map (⟨·⟩)

end Requests

end Harvest.Registry
