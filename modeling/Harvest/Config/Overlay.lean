import Harvest.Value

namespace Harvest

structure NotAnObject where
deriving DecidableEq

def Value.objectMembers : Value → Except NotAnObject Fields
  | .obj members => .ok members
  | _ => .error ⟨⟩

def Value.overlayMembers (v : Value) : Except NotAnObject Fields :=
  if v.isBlank then .ok [] else v.objectMembers

namespace Config

def membersUnder (lower : Fields) (name : String) : Fields :=
  match Members.get? lower name with
  | some (.obj members) => members
  | _ => []

mutual

/-- Objects that both layers hold are overlaid member by member. Any other value of the upper layer
stands in place of the lower one, lists as a whole, and a null leaves it as it is. -/
def overlay (lower : Fields) : List (String × Value) → Fields
  | [] => lower
  | (name, v) :: rest => overlay (overlayMember lower name v) rest

def overlayMember (lower : Fields) (name : String) : Value → Fields
  | .null => lower
  | .obj members =>
    Members.put lower name (.obj (overlay (membersUnder lower name) members))
  | v => Members.put lower name v

end

def flatten (layers : List Fields) : Fields :=
  layers.foldl overlay []

def flattenLayers (layers : List Value) : Except NotAnObject Fields :=
  (layers.mapM Value.overlayMembers).map flatten

end Config

end Harvest
