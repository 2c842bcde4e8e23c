import Harvest.Extraction

namespace Harvest.Scripted

inductive Action where
  | same
  | give (v : Value)
  | add (fields : Fields)
  | explain
  | make (fields : Fields)
  | cycle (actions : List Action)
  | broken
deriving Inhabited

namespace Action

def adjustedBy : Value → Adjusted
  | .null => .dropped
  | .obj fields => .fields fields
  | v => .other v.kindName

mutual

def run (n : Nat) (c : Candidate) : Action → Except Failure Adjusted
  | same => .ok (.candidate c)
  | give v => .ok (adjustedBy v)
  | add fields =>
    match c.value with
    | .obj members => .ok (.fields [("value", .obj (Members.putAll members fields))])
    | _ => .error .misfit
  | explain =>
    .ok (.fields [("value", .obj [("seen", c.context), ("type", c.typeName), ("was", c.value)])])
  | make fields =>
    (Failure.ofChecked .candidate (Candidate.build fields)).map .candidate
  | cycle actions => runNth n c (n % actions.length) actions
  | broken => .error .misfit

def runNth (n : Nat) (c : Candidate) : Nat → List Action → Except Failure Adjusted
  | _, [] => .error .misfit
  | 0, action :: _ => run n c action
  | k + 1, _ :: rest => runNth n c k rest

end

end Action

end Harvest.Scripted
