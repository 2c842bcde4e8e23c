import Harvest.Failure

namespace Harvest

inductive Level where
  | debug
  | info
  | warning
  | error
deriving DecidableEq

def Level.name : Level → String
  | debug => "DEBUG"
  | info => "INFO"
  | warning => "WARNING"
  | error => "ERROR"

inductive Notice where
  | noCandidates (root : String)
  | noRequests (typeName : String)
  | endpointNotFound (endpoint : String)
  | endpointNotReadonly (endpoint : String)
  | paginationNotFound (id : Value)
  | pathMismatch (current next : String)
  | traversing (adapter : Value) (endpoint : String)
  | traversalStarted (endpoint : Value) (contextNames : List Value)
  | pageFetched (endpoint : Value) (index : Nat) (status : Int)
  | loopDetected (endpoint : Value) (index : Nat)
  | traversalFailed (endpoint : Value) (index : Nat) (failure : Failure)
  | traversalComplete (endpoint : Value) (pages : Nat)
  | adjustmentDropped (typeName : Value) (kindName : String)
  | invalidItem (client : Value) (path method : String) (typeName : Value)
  | requestComplete (endpoint : String) (typeName : Value) (contexts items : Nat)

namespace Notice

def level : Notice → Level
  | noCandidates _ | noRequests _ | traversing _ _ | traversalStarted _ _ | pageFetched _ _ _
  | traversalComplete _ _ => .debug
  | requestComplete _ _ _ _ => .info
  | loopDetected _ _ | adjustmentDropped _ _ | invalidItem _ _ _ _ => .warning
  | endpointNotFound _ | endpointNotReadonly _ | paginationNotFound _ | pathMismatch _ _
  | traversalFailed _ _ _ => .error

def message : Notice → String
  | noCandidates root => "no candidate values for argument root " ++ root
  | noRequests typeName => "no request definitions for type " ++ typeName
  | endpointNotFound endpoint => "Endpoint " ++ endpoint ++ " is not defined, cannot use in fetch"
  | endpointNotReadonly endpoint =>
    "Endpoint " ++ endpoint ++ " is not marked as readonly, cannot use in fetch"
  | paginationNotFound _ => "pagination_not_found"
  | pathMismatch _ _ => "pagination_path_mismatch"
  | traversing adapter endpoint =>
    "traversing pages for adapter " ++ adapter.text ++ " endpoint " ++ endpoint
  | traversalStarted _ _ => "traversal_started"
  | pageFetched _ _ _ => "page_fetched"
  | loopDetected _ _ => "traversal_loop_detected"
  | traversalFailed _ _ _ => "traversal_error"
  | traversalComplete _ _ => "traversal_complete"
  | adjustmentDropped _ _ => "adjust_result_dropped"
  | invalidItem client path method typeName =>
    "extracted invalid item for endpoint " ++ client.text ++ "." ++ path ++ ":" ++ method ++ " " ++
      typeName.text
  | requestComplete _ _ _ _ => "request_complete"

def details (describe : Failure → String × String) : Notice → Fields
  | noCandidates _ | noRequests _ | endpointNotFound _ | endpointNotReadonly _
  | traversing _ _ => []
  | paginationNotFound id => [("strategy_id", id)]
  | pathMismatch current next => [("current_path", .str current), ("next_path", .str next)]
  | traversalStarted endpoint contextNames =>
    [("endpoint_id", endpoint), ("context_keys", .arr contextNames)]
  | pageFetched endpoint index status =>
    [("endpoint_id", endpoint), ("page_index", .ofNat index), ("status", .int status)]
  | loopDetected endpoint index => [("endpoint_id", endpoint), ("page_index", .ofNat index)]
  | traversalFailed endpoint index failure =>
    [("endpoint_id", endpoint), ("page_index", .ofNat index),
     ("error_type", .str (describe failure).1), ("error_message", .str (describe failure).2)]
  | traversalComplete endpoint pages => [("endpoint_id", endpoint), ("pages", .ofNat pages)]
  | adjustmentDropped typeName kindName => [("type_name", typeName), ("result_type", .str kindName)]
  | invalidItem client path method typeName =>
    [("event", .str "invalid_item_dropped"), ("client", client), ("path", .str path),
     ("method", .str method), ("type_name", typeName)]
  | requestComplete endpoint typeName contexts items =>
    [("endpoint_id", .str endpoint), ("type_name", typeName), ("contexts", .ofNat contexts),
     ("items", .ofNat items)]

end Notice

/-- A step that may fail, with the notices it gives. -/
structure Noted (α : Type) where
  notices : List Notice
  result : Except Failure α

namespace Noted

variable {α β : Type}

def note (n : Notice) : Noted Unit :=
  ⟨[n], .ok ()⟩

def fail (f : Failure) : Noted α :=
  ⟨[], .error f⟩

def lift (result : Except Failure α) : Noted α :=
  ⟨[], result⟩

def bind (a : Noted α) (next : α → Noted β) : Noted β :=
  match a.result with
  | .ok v => ⟨a.notices ++ (next v).notices, (next v).result⟩
  | .error f => ⟨a.notices, .error f⟩

instance : Monad Noted where
  pure a := ⟨[], .ok a⟩
  bind := bind

end Noted

end Harvest
