import Harvest.History
import Harvest.Link
import Harvest.Notice
import Harvest.Page

namespace Harvest.Pagination

inductive PathCheck where
  | same
  | data (v : Value)

inductive Strategy where
  | single
  | token (tokenField queryArg : Value)
  | cursor (cursorField : Value) (check : PathCheck)
  | offset (offsetArg limitArg itemsField pageSize : Value)
  | numbered (pageArg itemsField firstPage : Value)

/-- Decides on the next call, if there is to be one, from the page just fetched and its call. -/
abbrev Continuation := History → Page → Call → Noted (Option Call)

def textOf : Value → Except Failure String
  | .str s => .ok s
  | _ => .error .shapeless

def valueAt (data field : Value) : Except Failure Value := do
  let path ← textOf field
  match Value.lookupOrNull data path with
  | .ok v => return v
  | .error _ => throw .unreadable

def integerOf : Value → Except Failure Int
  | .bool b => .ok (if b then 1 else 0)
  | .int n => .ok n
  | .double d => .ok d.truncate
  | .str s => match Text.readInt? s with
    | some n => .ok n
    | none => .error .unreadable
  | _ => .error .misfit

/-- The value of a query argument, or a default. The name comes from the configuration, and other
values than texts name nothing. -/
def argumentOr (queryArgs : Fields) (name default : Value) : Except Failure Value := do
  match ← name.key with
  | some s => return (Members.get? queryArgs s).getD default
  | none => return default

/-- The call with one query argument set. The name `current` is taken. -/
def withArgument (c : Call) (name value : Value) : Except Failure Call :=
  match name with
  | .str s =>
    if s == "current" then .error .misfit
    else .ok { c with queryArgs := Members.put c.queryArgs s value }
  | _ => .error .misfit

def itemsOf (page : Page) (field : Value) : Except Failure (List Value) := do
  let found ← if field.isBlank then pure page.data else valueAt page.data field
  match found with
  | .arr items => return items
  | _ => return []

def PathCheck.allows : PathCheck → String → String → Except Failure Bool
  | same, current, next => .ok (Link.samePath current next)
  | data _, _, _ => .error .misfit

def isNoToken : Value → Bool
  | .null => true
  | .str s => s == ""
  | _ => false

def nextByToken (tokenField queryArg : Value) (page : Page) (current : Call) :
    Except Failure (Option Call) := do
  let token ← valueAt page.data tokenField
  if isNoToken token then return none else return some (← withArgument current queryArg token)

def nextByOffset (offsetArg limitArg itemsField pageSize : Value) (page : Page) (current : Call) :
    Except Failure (Option Call) := do
  let items ← itemsOf page itemsField
  let limit ← integerOf (← argumentOr current.queryArgs limitArg pageSize)
  if items.isEmpty || (items.length : Int) < limit then return none
  else
    let offset ← integerOf (← argumentOr current.queryArgs offsetArg (.int 0))
    return some (← withArgument current offsetArg (.int (offset + items.length)))

def nextByNumber (pageArg itemsField firstPage : Value) (page : Page) (current : Call) :
    Except Failure (Option Call) := do
  if (← itemsOf page itemsField).isEmpty then return none
  else
    let number ← integerOf (← argumentOr current.queryArgs pageArg firstPage)
    return some (← withArgument current pageArg (.int (number + 1)))

def followed (current : Call) (link : Link) : Call :=
  { current with
    path := if link.path == "" then current.path else link.path
    queryArgs := Members.putAll current.queryArgs
      ((Link.queryArguments link.query).map fun a => (a.1, .str a.2)) }

def nextByLink (check : PathCheck) (current : Call) (text : String) : Noted (Option Call) := do
  match Link.parse? text with
  | none => Noted.fail .unreadable
  | some link =>
    let next := followed current link
    if ← Noted.lift (check.allows current.path next.path) then return some next
    else
      Noted.note (.pathMismatch current.path next.path)
      return none

def nextByCursor (cursorField : Value) (check : PathCheck) (page : Page) (current : Call) :
    Noted (Option Call) := do
  match ← Noted.lift (valueAt page.data cursorField) with
  | .str text => if text == "" then return none else nextByLink check current text
  | _ => return none

namespace Strategy

def next : Strategy → Continuation
  | single => fun _ _ _ => pure none
  | token tokenField queryArg => fun _ page current =>
    Noted.lift (nextByToken tokenField queryArg page current)
  | cursor cursorField check => fun _ => nextByCursor cursorField check
  | offset offsetArg limitArg itemsField pageSize => fun _ page current =>
    Noted.lift (nextByOffset offsetArg limitArg itemsField pageSize page current)
  | numbered pageArg itemsField firstPage => fun _ page current =>
    Noted.lift (nextByNumber pageArg itemsField firstPage page current)

end Strategy

inductive StrategyType where
  | single
  | token
  | cursor
  | offset
  | numbered
deriving DecidableEq

namespace StrategyType

def name : StrategyType → String
  | single => "none"
  | token => "token"
  | cursor => "cursor"
  | offset => "offset"
  | numbered => "page_number"

def reportName : StrategyType → String
  | single => "no_pagination"
  | token => "token_pagination"
  | cursor => "cursor_pagination"
  | offset => "offset_pagination"
  | numbered => "page_number_pagination"

def all : List StrategyType :=
  [single, token, cursor, offset, numbered]

def ofName? (s : String) : Option StrategyType :=
  all.find? (·.name == s)

def requiredParams : StrategyType → List String
  | token => ["token_field", "query_arg"]
  | cursor => ["cursor_field"]
  | _ => []

def optionalParams : StrategyType → List String
  | cursor => ["path_checker"]
  | offset => ["offset_arg", "limit_arg", "items_field", "page_size"]
  | numbered => ["page_arg", "items_field", "first_page"]
  | _ => []

def paramFault? (t : StrategyType) (params : Fields) : Option ParamFault :=
  match (Members.keys params).find? fun k => !(t.requiredParams ++ t.optionalParams).contains k with
  | some k => some (.unexpected t.reportName k)
  | none =>
    match t.requiredParams.filter fun k => !Members.has params k with
    | [] => none
    | missing => some (.missing t.reportName missing)

def withParams (t : StrategyType) (params : Fields) : Strategy :=
  let param (name : String) (default : Value) := (Members.get? params name).getD default
  match t with
  | single => .single
  | token => .token (param "token_field" .null) (param "query_arg" .null)
  | cursor => .cursor (param "cursor_field" .null)
    (match Members.get? params "path_checker" with
      | some v => .data v
      | none => .same)
  | offset => .offset (param "offset_arg" (.str "offset")) (param "limit_arg" (.str "limit"))
    (param "items_field" .null) (param "page_size" (.int 100))
  | numbered => .numbered (param "page_arg" (.str "page")) (param "items_field" .null)
    (param "first_page" (.int 1))

def make (t : StrategyType) (params : Fields) : Except ParamFault Strategy :=
  match t.paramFault? params with
  | some fault => .error fault
  | none => .ok (t.withParams params)

end StrategyType

end Harvest.Pagination
