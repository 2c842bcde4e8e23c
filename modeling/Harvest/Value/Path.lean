import Harvest.Text.Integer
import Harvest.Value

namespace Harvest.Value

/-- A part stands for an index, but its digits have no value. -/
inductive PathFault where
  | unreadableIndex (part : String)
deriving DecidableEq

def splitPath (path : String) : List String :=
  (path.toList.splitOn '.').map String.ofList

def isIndexText (part : String) : Bool :=
  part != "" && part.toList.all Text.isDigit

def index? (part : String) : Except PathFault Nat :=
  match (Text.grouped Text.decimalValue? part.toList).bind Text.natOf? with
  | some n => .ok n
  | none => .error (.unreadableIndex part)

def child (v : Value) (part : String) : Except PathFault (Option Value) :=
  match v with
  | obj members => .ok (Members.get? members part)
  | arr items => if isIndexText part then (index? part).map (items[·]?) else .ok none
  | _ => .ok none

def follow : Value → List String → Except PathFault (Option Value)
  | v, [] => .ok (some v)
  | v, part :: rest =>
    match child v part with
    | .error fault => .error fault
    | .ok none => .ok none
    | .ok (some next) => follow next rest

def lookup (v : Value) (path : String) : Except PathFault (Option Value) :=
  follow v (splitPath path)

def lookupOr (v : Value) (path : String) (default : Value) : Except PathFault Value :=
  (lookup v path).map (·.getD default)

def lookupOrNull (v : Value) (path : String) : Except PathFault Value :=
  (lookup v path).map (·.getD .null)

theorem follow_append (v : Value) (front back : List String) :
    follow v (front ++ back) = match follow v front with
      | .error fault => .error fault
      | .ok none => .ok none
      | .ok (some next) => follow next back := by
  induction front generalizing v with
  | nil => rfl
  | cons part rest ih =>
    simp only [List.cons_append, follow]
    split <;> simp_all

end Harvest.Value
