import Harvest.Config.Overlay
import Harvest.Endpoint
import Harvest.Failure

namespace Harvest.Registry

open Config

abbrev Address := String × Method

structure Endpoints where
  entries : List (Address × Given Endpoint.Entry)

def putEntry (entries : List (Address × Given Endpoint.Entry)) (address : Address)
    (entry : Given Endpoint.Entry) : List (Address × Given Endpoint.Entry) :=
  if entries.any (·.1 == address) then
    entries.map fun e => if e.1 == address then (address, entry) else e
  else entries ++ [(address, entry)]

namespace Endpoints

def empty : Endpoints :=
  ⟨[]⟩

def query (r : Endpoints) (path : String) (method : Method) : Option (Given Endpoint.Entry) :=
  (r.entries.find? (·.1 == (path, method))).map (·.2)

def readEntry (default : Value) (path : String) (method : Method) (v : Value) :
    Except Failure (Given Endpoint.Entry) :=
  match flattenLayers [default.opened, v.opened] with
  | .error _ => .error .shapeless
  | .ok members =>
    match Endpoint.Entry.read (.obj members) with
    | .ok entry => .ok entry
    | .rejected issues =>
      .error (.definition (.invalid ("endpoint " ++ path ++ ":" ++ method.name) issues))

def addMethods (default : Value) (path : String) (r : Endpoints) : Fields →
    Except Failure Endpoints
  | [] => .ok r
  | (name, v) :: rest =>
    match Method.ofName? name with
    | none => .error (.definition (.unknownMethod name path))
    | some method =>
      match readEntry default path method v with
      | .error f => .error f
      | .ok entry => addMethods default path ⟨putEntry r.entries (path, method) entry⟩ rest

def addPaths (default : Value) (r : Endpoints) : Fields → Except Failure Endpoints
  | [] => .ok r
  | (path, byMethod) :: rest =>
    match byMethod.objectMembers with
    | .error _ => .error .shapeless
    | .ok methods =>
      match addMethods default path r methods with
      | .error f => .error f
      | .ok r => addPaths default r rest

def read (default byPath : Value) : Except Failure Endpoints :=
  match byPath.overlayMembers with
  | .error _ => .error .shapeless
  | .ok paths => addPaths default empty paths

end Endpoints

end Harvest.Registry
