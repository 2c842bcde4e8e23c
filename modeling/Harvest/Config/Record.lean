import Harvest.Config.Field
import Harvest.Value.Spread

namespace Harvest.Config

/-- What was read as a record of a kind. A record of a narrower kind may stand for it; it stays what
it is, so that its further members are kept. -/
structure Given (α : Type) where
  value : α
  kind : Kind
  further : Fields
  names : List String

namespace Given

variable {α : Type}

def read (kind : Kind) (build : Fields → Checked α) : Value → Checked (Given α)
  | .obj members =>
    .map (⟨·, kind, [], kind.memberNames.filter (Members.has members)⟩) (build members)
  | .record other members names =>
    if other.narrows kind then
      .map (⟨·, other, members.filter fun m => !kind.memberNames.contains m.1, names⟩)
        (build (members.filter fun m => kind.memberNames.contains m.1))
    else Field.refuse (.notRecord kind) (.record other members names)
  | v => Field.refuse (.notRecord kind) v

def readClosed (kind : Kind) (build : Fields → Checked α) : Value → Checked (Given α) :=
  read kind fun members => build members <* Field.only kind.memberNames members

def members (write : α → Fields) (g : Given α) : Fields :=
  write g.value ++ g.further

def record (write : α → Fields) (g : Given α) : Value :=
  .record g.kind (g.members write) g.names

def given (write : α → Fields) (g : Given α) : Fields :=
  Value.givenParts g.kind g.names (g.members write)

end Given

end Harvest.Config
