import Harvest.Endpoint
import Harvest.Transformation

namespace Harvest

open Config

structure Request where
  target : Given Endpoint.Target
  transformation : Given Transformation
  context : Fields

namespace Request

def build (ms : Fields) : Checked Request :=
  Request.mk <$> Field.required ms "endpoint" Endpoint.Target.read
    <*> Field.optional ms "transformation" Transformation.plain Transformation.read
    <*> Field.optional ms "context" [] Field.object

def read : Value → Checked (Given Request) :=
  Given.readClosed .request build

def members (r : Request) : Fields :=
  [("endpoint", r.target.record Endpoint.Target.members),
   ("transformation", r.transformation.record Transformation.members), ("context", .obj r.context)]

end Request

structure Resource where
  typeName : String

namespace Resource

def read : Value → Checked (Given Resource) :=
  Given.read .resource fun ms => Resource.mk <$> Field.required ms "type_name" Field.name

def members (r : Resource) : Fields :=
  [("type_name", .str r.typeName)]

end Resource

end Harvest
