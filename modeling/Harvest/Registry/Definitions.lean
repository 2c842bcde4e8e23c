import Harvest.Pagination.Table
import Harvest.Registry.Endpoints
import Harvest.Registry.Requests

namespace Harvest.Registry

open Config

structure Definitions where
  adapterName : Value
  defaultClient : String
  clients : List (String × Endpoints)
  requests : Requests
  paginations : Pagination.Table

namespace Definitions

def clientNames (d : Definitions) : List String :=
  Members.keys d.clients

def queryEndpoint (d : Definitions) (client path : String) (method : Method) :
    Option (Given Endpoint.Entry) :=
  (Members.get? d.clients client).bind (·.query path method)

def client (d : Definitions) (name : Value) : Except Failure String := do
  match (← name.key).filter (Members.has d.clients) with
  | some client => return client
  | none =>
    throw (.definition (.clientUndefined (← name.asText) (← d.adapterName.asText)))

def member (v : Value) (name : String) : Except Failure Value :=
  match v.objectMembers with
  | .error _ => .error .shapeless
  | .ok members => .ok ((Members.get? members name).getD .null)

def memberOrNull (v : Value) (name : String) : Except Failure Value :=
  match v.overlayMembers with
  | .error _ => .error .shapeless
  | .ok members => .ok ((Members.get? members name).getD .null)

def readClient (available : List String) (m : String × Value) :
    Except Failure (String × Endpoints) := do
  if !available.contains m.1 then throw (.definition (.clientMissing m.1))
  let endpoints ← memberOrNull m.2 "endpoints"
  let registry ← Endpoints.read (← memberOrNull endpoints "default")
    (← memberOrNull endpoints "customizations")
  return (m.1, registry)

def readDefault (clients : List (String × Endpoints)) : Value → Except Failure Value
  | .null =>
    match clients with
    | [(name, _)] => .ok (.str name)
    | _ => .error (.definition .defaultRequired)
  | v => .ok v

def checkDefault (clients : List (String × Endpoints)) (default : Value) :
    Except Failure String := do
  match (← default.key).filter (Members.has clients) with
  | some client => return client
  | none =>
    throw (.definition (.defaultUnknown (← default.asText) (sortTexts (Members.keys clients))))

def readAdapterName (members : Fields) : Value :=
  (Members.get? members "adapter_name").getD (.str "unknown")

def read (available : List String) (config : Value) : Except Failure Definitions := do
  let clientsConfig ← member config "clients"
  let options ← memberOrNull clientsConfig "options"
  let listed ← options.overlayMembers.mapError fun _ => Failure.shapeless
  let clients ← listed.mapM (readClient available)
  let default ← readDefault clients (← memberOrNull clientsConfig "default")
  let requestsConfig ← member config "requests"
  let members ← config.objectMembers.mapError fun _ => Failure.shapeless
  let requests ← Requests.read (← memberOrNull requestsConfig "default")
    (← memberOrNull requestsConfig "customizations")
  let paginations ← Pagination.Table.read (← member config "pagination")
  let defaultClient ← checkDefault clients default
  return ⟨readAdapterName members, defaultClient, clients, requests, paginations⟩

end Definitions

end Harvest.Registry
