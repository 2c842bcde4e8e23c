import Harvest.Config.Overlay
import Harvest.Value.Spread

namespace Harvest.Config

structure Defaults where
  default : Value
  named : Fields

namespace Defaults

def make (default named : Value) : Except NotAnObject Defaults := do
  let members ← named.overlayMembers
  return ⟨default.opened, members.map fun m => (m.1, m.2.opened)⟩

def keys (d : Defaults) : List String :=
  Members.keys d.named

def has (d : Defaults) (key : String) : Bool :=
  Members.has d.named key

def laid (d : Defaults) (v : Value) : Except NotAnObject Value :=
  match v with
  | .arr items => (items.mapM fun item => (flattenLayers [d.default, item]).map .obj).map .arr
  | v => (flattenLayers [d.default, v]).map .obj

def query (d : Defaults) (key : String) : Except NotAnObject (Option Value) :=
  match Members.get? d.named key with
  | none => .ok none
  | some v => (d.laid v).map some

end Defaults

end Harvest.Config
