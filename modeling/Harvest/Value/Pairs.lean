import Harvest.Failure
import Harvest.Value.Sorted

namespace Harvest.Value

def pair (v : Value) : Except Failure (Value × Value) := do
  match ← v.iterated with
  | [name, value] => if name.isKey then return (name, value) else throw .misfit
  | _ => throw .unreadable

def putPair (pairs : List (Value × Value)) (p : Value × Value) : List (Value × Value) :=
  if pairs.any (·.1.same p.1) then
    pairs.map fun other => if other.1.same p.1 then (other.1, p.2) else other
  else pairs ++ [p]

def pairs : Value → Except Failure (List (Value × Value))
  | obj members => .ok (members.map fun m => (str m.1, m.2))
  | v => do return (← (← v.iterated).mapM pair).foldl putPair []

def members? (pairs : List (Value × Value)) : Option Fields :=
  pairs.mapM fun p => p.1.text?.map (·, p.2)

def ofPairs (pairs : List (Value × Value)) : Value :=
  match members? pairs with
  | some members => obj members
  | none => arr (pairs.map fun p => arr [p.1, p.2])

end Harvest.Value
