import Harvest.Config.Record
import Harvest.Method

namespace Harvest.Endpoint

open Config

structure Settings where
  queryArgs : Option Fields
  headers : Option Fields
  body : Value
  omitBody : Option Bool
  pagination : Option String

namespace Settings

def build (ms : Fields) : Checked Settings :=
  Settings.mk <$> Field.optional ms "query_args" none (Field.orNull Field.object)
    <*> Field.optional ms "headers" none (Field.orNull Field.object)
    <*> Field.optional ms "body" .null Field.any
    <*> Field.optional ms "omit_body" none (Field.orNull Field.flag)
    <*> Field.optional ms "pagination" none (Field.orNull Field.text)

def members (s : Settings) : Fields :=
  [("query_args", .ofOption .obj s.queryArgs), ("headers", .ofOption .obj s.headers),
   ("body", s.body), ("omit_body", .ofOption .bool s.omitBody),
   ("pagination", .ofOption .str s.pagination)]

def read : Value → Checked (Given Settings) :=
  Given.readClosed .endpointSettings build

end Settings

structure Entry extends Settings where
  readonly : Bool

namespace Entry

def build (ms : Fields) : Checked Entry :=
  Entry.mk <$> Settings.build ms <*> Field.optional ms "readonly" false Field.flag

def members (e : Entry) : Fields :=
  e.toSettings.members ++ [("readonly", .bool e.readonly)]

def read : Value → Checked (Given Entry) :=
  Given.readClosed .endpointEntry build

end Entry

structure Target extends Settings where
  path : String
  method : Method
  client : Option String

namespace Target

def build (ms : Fields) : Checked Target :=
  Target.mk <$> Settings.build ms <*> Field.required ms "path" Field.name
    <*> Field.optional ms "method" .get Field.method
    <*> Field.optional ms "client" none (Field.orNull Field.text)

def members (t : Target) : Fields :=
  t.toSettings.members ++
    [("path", .str t.path), ("method", .ofMethod t.method), ("client", .ofOption .str t.client)]

def read : Value → Checked (Given Target) :=
  Given.readClosed .endpointTarget build

end Target

structure Resolved extends Target where
  readonly : Bool

namespace Resolved

def build (ms : Fields) : Checked Resolved :=
  Resolved.mk <$> Target.build ms <*> Field.optional ms "readonly" false Field.flag

def members (r : Resolved) : Fields :=
  r.toTarget.members ++ [("readonly", .bool r.readonly)]

def read : Value → Checked (Given Resolved) :=
  Given.readClosed .resolvedEndpoint build

end Resolved

end Harvest.Endpoint
