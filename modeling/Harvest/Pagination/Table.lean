import Harvest.Config.Overlay
import Harvest.Pagination.Strategy

namespace Harvest.Pagination

open Config

structure Entry where
  type : String
  params : Fields
  clientArgs : Fields

namespace Entry

def build (ms : Fields) : Checked Entry :=
  Entry.mk <$> Field.required ms "type" Field.text
    <*> Field.optional ms "params" [] Field.object
    <*> Field.optional ms "client_args" [] Field.object

def read : Value → Checked (Given Entry) :=
  Given.readClosed .paginationEntry build

def members (e : Entry) : Fields :=
  [("type", .str e.type), ("params", .obj e.params), ("client_args", .obj e.clientArgs)]

end Entry

structure Definition where
  id : String
  strategy : Strategy
  clientArgs : Fields

def noPagination : String := "none"

def Definition.single : Definition :=
  ⟨noPagination, .single, []⟩

structure Table where
  definitions : List (String × Definition)

namespace Table

def ofDefinitions (definitions : List (String × Definition)) : Except DefinitionFault Table :=
  if Members.has definitions noPagination then .error (.reservedPagination noPagination)
  else .ok ⟨definitions ++ [(noPagination, .single)]⟩

def empty : Table :=
  ⟨[(noPagination, .single)]⟩

def ids (t : Table) : List String :=
  Members.keys t.definitions

def has (t : Table) (id : String) : Bool :=
  Members.has t.definitions id

def hasKey (t : Table) (id : Value) : Except Failure Bool :=
  id.key.map fun name => name.any t.has

def notFound (id : Value) : Failure :=
  if id.isWritable then .definition (.paginationNotFound id) else .unreadable

def lookup (t : Table) (id : Value) : Noted Definition := do
  match id with
  | .null => return .single
  | id =>
    match (← Noted.lift id.key).bind (Members.get? t.definitions) with
    | some d => return d
    | none =>
      Noted.note (.paginationNotFound id)
      Noted.fail (notFound id)

def readDefinition (id : String) (v : Value) : Except DefinitionFault Definition :=
  match Entry.read v with
  | .rejected issues => .error (.invalid ("pagination config '" ++ id ++ "'") issues)
  | .ok entry =>
    match StrategyType.ofName? entry.value.type with
    | none => .error (.strategyUnknown entry.value.type id
        (sortTexts (StrategyType.all.map StrategyType.name)))
    | some type =>
      match type.make entry.value.params with
      | .error fault => .error (.badParams id fault)
      | .ok strategy => .ok ⟨id, strategy, entry.value.clientArgs⟩

def readDefinitions (members : Fields) :
    Except DefinitionFault (List (String × Definition)) :=
  members.mapM fun m => (readDefinition m.1 m.2).map (m.1, ·)

def read (config : Value) : Except Failure Table :=
  match config.overlayMembers with
  | .error _ => .error .shapeless
  | .ok members =>
    (readDefinitions members >>= ofDefinitions).mapError .definition

end Table

end Harvest.Pagination
