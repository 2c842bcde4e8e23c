import Harvest.Config.Issue
import Harvest.Value.Canonical

namespace Harvest

open Config (Issue)

inductive ParamFault where
  | unexpected (strategy param : String)
  | missing (strategy : String) (params : List String)
deriving DecidableEq

def joinNames : List String → String
  | [] => ""
  | [a] => "'" ++ a ++ "'"
  | [a, b] => "'" ++ a ++ "' and '" ++ b ++ "'"
  | a :: rest => "'" ++ a ++ "', " ++ joinNames rest

def ParamFault.message : ParamFault → String
  | unexpected strategy param =>
    strategy ++ "() got an unexpected keyword argument '" ++ param ++ "'"
  | missing strategy params =>
    strategy ++ "() missing " ++ toString params.length ++ " required keyword-only argument" ++
      (if params.length = 1 then ": " else "s: ") ++ joinNames params

inductive DefinitionFault where
  | endpointNotFound (client path method : String)
  | endpointNotReadonly (client path method : String)
  | paginationNotFound (id : Value)
  | unresolved (names : List String) (bound : List Value)
  | invalid (what : String) (issues : List Issue)
  | unknownMethod (name path : String)
  | requestsNotListed (typeName : String)
  | clientMissing (name : String)
  | defaultRequired
  | defaultUnknown (shown : String) (clients : List String)
  | clientUndefined (name adapter : String)
  | strategyUnknown (type id : String) (known : List String)
  | badParams (id : String) (fault : ParamFault)
  | reservedPagination (id : String)

def endpointId (client path method : String) : String :=
  "[" ++ client ++ "]" ++ path ++ ":" ++ method

namespace DefinitionFault

def message : DefinitionFault → String
  | endpointNotFound client path method =>
    "Endpoint " ++ endpointId client path method ++ " is not defined, cannot use in fetch"
  | endpointNotReadonly client path method =>
    "Endpoint " ++ endpointId client path method ++
      " is not marked as readonly, cannot use in fetch"
  | paginationNotFound id => "Pagination strategy '" ++ id.text ++ "' is not defined"
  | unresolved names bound =>
    "Could not resolve arguments " ++ Value.shownNames names ++ " from context keys " ++
      (Value.arr bound).text
  | invalid what _ => "Invalid " ++ what
  | unknownMethod name path => "Invalid method '" ++ name ++ "' for " ++ path
  | requestsNotListed typeName => "Request definitions for '" ++ typeName ++ "' must be a list"
  | clientMissing name => "No HTTP client provided for client '" ++ name ++ "'"
  | defaultRequired => "clients.default is required when several clients exist"
  | defaultUnknown shown clients =>
    "Default client '" ++ shown ++ "' is not one of " ++ Value.shownNames clients
  | clientUndefined name adapter => "Client '" ++ name ++ "' is not defined for " ++ adapter
  | strategyUnknown type id known =>
    "Unknown pagination type '" ++ type ++ "' for '" ++ id ++ "'; expected one of " ++
      Value.shownNames known
  | badParams id fault => "Invalid params for pagination '" ++ id ++ "': " ++ fault.message
  | reservedPagination id => "Pagination id '" ++ id ++ "' is reserved"

end DefinitionFault

inductive Failure where
  | definition (fault : DefinitionFault)
  | rejected (kind : Kind) (issues : List Issue)
  | transport (message : String) (status : Value)
  | collaborator (message : String)
  | unreadable
  | misfit
  | shapeless

/-- The name under which something is looked up. Other values than texts name nothing; where nothing
can be looked up under a value, that is a failure. -/
def Value.key (v : Value) : Except Failure (Option String) :=
  if v.isKey then .ok v.text? else .error .misfit

def Value.iterated (v : Value) : Except Failure (List Value) :=
  match v.iterated? with
  | some items => .ok items
  | none => .error .misfit

/-- The text of a value. An integer of too many digits has none, wherever it stands in the value. -/
def Value.asText (v : Value) : Except Failure String :=
  if v.isWritable then .ok v.text else .error .unreadable

def Failure.ofChecked {α : Type} (kind : Kind) : Config.Checked α → Except Failure α
  | .ok a => .ok a
  | .rejected issues => .error (.rejected kind issues)

def rejectionTitle (kind : Kind) (issues : List Issue) : String :=
  toString issues.length ++ (if issues.length = 1 then " validation error for "
    else " validation errors for ") ++ kind.name

end Harvest
