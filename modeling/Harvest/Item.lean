import Harvest.Config.Record
import Harvest.Failure

namespace Harvest

open Config

/-- A candidate. An adjustment may put anything into its parts, so none of them is more than data.
-/
structure Candidate where
  value : Value
  typeName : Value
  context : Value

namespace Candidate

def build (ms : Fields) : Checked Candidate :=
  Candidate.mk <$> Field.required ms "value" Field.any
    <*> (Value.str <$> Field.required ms "type_name" Field.text)
    <*> (Value.obj <$> Field.optional ms "context" [] Field.object)

def read : Value → Checked (Given Candidate) :=
  Given.read .candidate build

def members (c : Candidate) : Fields :=
  [("value", c.value), ("type_name", c.typeName), ("context", c.context)]

def make (value typeName context : Value) : Except Failure Candidate :=
  Failure.ofChecked .candidate (build (members ⟨value, typeName, context⟩))

def update (c : Candidate) (fields : Fields) : Candidate :=
  ⟨(Members.get? fields "value").getD c.value, (Members.get? fields "type_name").getD c.typeName,
    (Members.get? fields "context").getD c.context⟩

end Candidate

structure Item where
  value : Fields
  typeName : String
  context : Fields

namespace Item

def build (ms : Fields) : Checked Item :=
  Item.mk <$> Field.required ms "value" Field.object
    <*> Field.required ms "type_name" Field.text
    <*> Field.optional ms "context" [] Field.object

def read : Value → Checked (Given Item) :=
  Given.read .item build

def members (i : Item) : Fields :=
  [("value", .obj i.value), ("type_name", .str i.typeName), ("context", .obj i.context)]

def ofCandidate? (c : Candidate) : Option Item :=
  match c with
  | ⟨.obj value, .str typeName, .obj context⟩ => some ⟨value, typeName, context⟩
  | _ => none

end Item

end Harvest
