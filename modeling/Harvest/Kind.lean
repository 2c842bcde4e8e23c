namespace Harvest

inductive Kind where
  | endpointSettings
  | endpointEntry
  | endpointTarget
  | resolvedEndpoint
  | call
  | page
  | candidate
  | item
  | transformation
  | request
  | resource
  | paginationEntry
deriving DecidableEq

namespace Kind

def name : Kind → String
  | endpointSettings => "EndpointArgs"
  | endpointEntry => "EndpointDefinition"
  | endpointTarget => "EndpointReference"
  | resolvedEndpoint => "MergedEndpoint"
  | call => "CallArgs"
  | page => "Response"
  | candidate => "GeneratedItem"
  | item => "ValueGeneratedItem"
  | transformation => "TransformationDefinition"
  | request => "RequestDefinition"
  | resource => "ResourceIdentifier"
  | paginationEntry => "PaginationConfig"

def all : List Kind :=
  [endpointSettings, endpointEntry, endpointTarget, resolvedEndpoint, call, page, candidate, item,
    transformation, request, resource, paginationEntry]

def ofName? (name : String) : Option Kind :=
  all.find? (·.name == name)

def memberNames : Kind → List String
  | endpointSettings => settings
  | endpointEntry => settings ++ ["readonly"]
  | endpointTarget => target
  | resolvedEndpoint => target ++ ["readonly"]
  | call => ["path", "method", "query_args", "headers", "body"]
  | page => ["data", "status", "headers"]
  | candidate | item => ["value", "type_name", "context"]
  | transformation => ["root", "single", "pick", "omit", "nest_under_field", "adjust"]
  | request => ["endpoint", "transformation", "context"]
  | resource => ["type_name"]
  | paginationEntry => ["type", "params", "client_args"]
where
  settings := ["query_args", "headers", "body", "omit_body", "pagination"]
  target := settings ++ ["path", "method", "client"]

def memberKind? : Kind → String → Option Kind
  | request, "endpoint" => some endpointTarget
  | request, "transformation" => some transformation
  | _, _ => none

/-- Whether a record of the first kind may stand where the second one is asked for. -/
def narrows : Kind → Kind → Bool
  | endpointEntry, endpointSettings => true
  | endpointTarget, endpointSettings => true
  | resolvedEndpoint, endpointSettings => true
  | resolvedEndpoint, endpointTarget => true
  | item, candidate => true
  | narrow, wide => narrow = wide

end Kind

end Harvest
