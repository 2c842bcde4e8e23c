import Harvest.Endpoint
import Harvest.Failure
import Harvest.Template
import Harvest.Value.Canonical

namespace Harvest

open Config

structure Call where
  path : String
  method : Method
  queryArgs : Fields
  headers : Fields
  body : Value

namespace Call

def build (ms : Fields) : Checked Call :=
  Call.mk <$> Field.required ms "path" Field.text
    <*> Field.optional ms "method" .get Field.method
    <*> Field.optional ms "query_args" [] Field.object
    <*> Field.optional ms "headers" [] Field.object
    <*> Field.optional ms "body" .null Field.any

def read : Value → Checked (Given Call) :=
  Given.read .call build

def members (c : Call) : Fields :=
  [("path", .str c.path), ("method", .ofMethod c.method), ("query_args", .obj c.queryArgs),
   ("headers", .obj c.headers), ("body", c.body)]

def data (c : Call) : Value :=
  (Value.obj c.members).full

def fingerprint (c : Call) : String :=
  c.data.compress

def isWritable (c : Call) : Bool :=
  c.data.isWritable

def identify (c : Call) : Except Failure String :=
  if c.isWritable then .ok c.fingerprint else .error .unreadable

def template (c : Call) : Value :=
  .arr [.str c.path, .obj c.queryArgs, .obj c.headers, c.body]

def placeholders (c : Call) : List String :=
  Template.placeholders c.template

/-- The parts of a call in which placeholders were filled. In place of the path anything may stand
that the context holds. -/
structure Parts where
  path : Value
  queryArgs : Fields
  headers : Fields
  body : Value

def filled (context : Value) (c : Call) : Except Failure (Template.Filled Parts) := do
  let path ← Template.fillString context c.path
  let queryArgs ← Template.fillMembers context c.queryArgs
  let headers ← Template.fillMembers context c.headers
  let body ← Template.fill context c.body
  return ⟨⟨path.value, queryArgs.value, headers.value, body.value⟩,
    path.missing ++ queryArgs.missing ++ headers.missing ++ body.missing⟩

end Call

namespace Template

/-- What a context binds, as a report lists it: it has to have an order, and to be written. -/
def bound (context : Value) : Except Failure (List Value) :=
  match context.sorted? with
  | some names => if (Value.arr names).isWritable then .ok names else .error .unreadable
  | none => .error .misfit

/-- The value of a filling in which no name was missing. The failure names what is missing and what
the context binds. -/
def Filled.complete {α : Type} (context : Value) (filled : Filled α) : Except Failure α :=
  if filled.missing.isEmpty then .ok filled.value
  else do throw (.definition (.unresolved filled.missing.eraseDups (← bound context)))

def replace (context : Value) (strict : Bool) (v : Value) : Except Failure Value := do
  let filled ← fill context v
  if strict then filled.complete context else return filled.value

end Template

def Call.substitute (context : Value) (c : Call) : Except Failure Call := do
  let filled ← c.filled context
  let parts ← filled.complete context
  return ⟨← parts.path.asText, c.method, parts.queryArgs, parts.headers, parts.body⟩

end Harvest
