import Harvest.Registry.Definitions

namespace Harvest

open Config

structure Plan where
  request : Request
  endpoint : Endpoint.Resolved
  clientName : String
  pagination : Pagination.Definition
  call : Call

namespace Endpoint

def Resolved.call (r : Resolved) : Call where
  path := r.path
  method := r.method
  queryArgs := r.queryArgs.getD []
  headers := r.headers.getD []
  body := if r.omitBody = some true then .null else r.body

end Endpoint

namespace Plan

def endpointId (p : Plan) : String :=
  Harvest.endpointId p.clientName p.endpoint.path p.endpoint.method.name

def placeholders (p : Plan) : List String :=
  p.call.placeholders

def roots (p : Plan) : List String :=
  Template.roots p.placeholders

def filledIn? : Option String → Option String
  | some s => if s == "" then none else some s
  | none => none

def clientOf (definitions : Registry.Definitions) (target : Endpoint.Target) : String :=
  (filledIn? target.client).getD definitions.defaultClient

def paginationId (target : Endpoint.Target) (entry : Endpoint.Entry) : Value :=
  .ofOption .str ((filledIn? target.pagination).or entry.pagination)

/-- The three ranks laid over each other, with what is not open to them written last. -/
def merged (client : String) (target : Given Endpoint.Target) (entry : Given Endpoint.Entry)
    (pagination : Pagination.Definition) : Fields :=
  let ranks := flatten [pagination.clientArgs,
    (entry.given Endpoint.Entry.members).filter (·.1 != "readonly"),
    target.given Endpoint.Target.members]
  Members.putAll ranks
    [("path", .str target.value.path), ("method", .ofMethod target.value.method),
     ("client", .str client), ("pagination", .str pagination.id),
     ("readonly", .bool entry.value.readonly)]

def entryFor (definitions : Registry.Definitions) (client : String) (target : Endpoint.Target) :
    Noted (Given Endpoint.Entry) := do
  let id := Harvest.endpointId client target.path target.method.name
  match definitions.queryEndpoint client target.path target.method with
  | none =>
    Noted.note (.endpointNotFound id)
    Noted.fail (.definition (.endpointNotFound client target.path target.method.name))
  | some entry =>
    if entry.value.readonly then return entry
    else
      Noted.note (.endpointNotReadonly id)
      Noted.fail (.definition (.endpointNotReadonly client target.path target.method.name))

def make (definitions : Registry.Definitions) (request : Request) : Noted Plan := do
  let target := request.target
  let client := clientOf definitions target.value
  let entry ← entryFor definitions client target.value
  let pagination ← definitions.paginations.lookup (paginationId target.value entry.value)
  let id := Harvest.endpointId client target.value.path target.value.method.name
  match Endpoint.Resolved.read (.obj (merged client target entry pagination)) with
  | .ok resolved =>
    return ⟨request, resolved.value, client, pagination, resolved.value.call⟩
  | .rejected issues => Noted.fail (.definition (.invalid ("merged endpoint " ++ id) issues))

end Plan

end Harvest
