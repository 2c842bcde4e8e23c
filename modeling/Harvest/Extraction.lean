import Harvest.Item
import Harvest.Request
import Harvest.Run

namespace Harvest

inductive Adjusted where
  | dropped
  | fields (fields : Fields)
  | candidate (c : Candidate)
  | other (kindName : String)

abbrev Adjuster (σ : Type) := Hook → Candidate → σ → Except Failure Adjusted × σ

namespace Transformation

def select (t : Transformation) (data : Value) : Except Failure (List Value) := do
  let found ← match t.root with
    | none => pure data
    | some root =>
      if root == "" then pure data
      else match Value.lookupOrNull data root with
        | .ok v => pure v
        | .error _ => throw .unreadable
  match found with
  | .null => return []
  | .arr items => return if t.single then items.take 1 else items
  | v => return [v]

def keeps (t : Transformation) (name : String) : Bool :=
  (match t.keep with
    | none => true
    | some names => names.contains name) &&
  (match t.drop with
    | none => true
    | some names => !names.contains name)

def trimmed (t : Transformation) : Value → Value
  | .obj members => .obj (members.filter fun m => t.keeps m.1)
  | v => v

def nested (t : Transformation) (v : Value) : Value :=
  match t.nestUnder with
  | none => v
  | some name => if name == "" then v else .obj [(name, v)]

def reshape (t : Transformation) (v : Value) : Value :=
  t.nested (t.trimmed v)

end Transformation

namespace Extraction

variable {σ : Type}

def adjusted (adjust : Adjuster σ) (hook : Hook) (typeName : Value) (c : Candidate) :
    Run σ (Option Candidate) := fun w =>
  match adjust hook c w with
  | (.error f, w) => ⟨w, [], .failed f⟩
  | (.ok .dropped, w) => ⟨w, [], .done none⟩
  | (.ok (.fields fields), w) => ⟨w, [], .done (some (c.update fields))⟩
  | (.ok (.candidate new), w) => ⟨w, [], .done (some new)⟩
  | (.ok (.other kindName), w) =>
    ⟨w, [.notice (.adjustmentDropped typeName kindName)], .done none⟩

def candidateOf (adjust : Adjuster σ) (t : Transformation) (typeName context : Value) (v : Value) :
    Run σ (Option Candidate) := do
  let c ← Run.ofExcept (Candidate.make (t.reshape v) typeName context)
  match t.adjust with
  | none => return some c
  | some hook => adjusted adjust hook typeName c

def candidatesOf (adjust : Adjuster σ) (t : Transformation) (typeName context : Value) :
    List Value → Run σ (List Candidate)
  | [] => Run.done []
  | v :: rest => do
    let first ← candidateOf adjust t typeName context v
    let others ← candidatesOf adjust t typeName context rest
    return first.toList ++ others

def transform (adjust : Adjuster σ) (t : Transformation) (whole : Candidate) :
    Run σ (List Candidate) := do
  let values ← Run.ofExcept (t.select whole.value)
  candidatesOf adjust t whole.typeName whole.context values

def ofPage (adjust : Adjuster σ) (request : Request) (typeName : Value) (page : Page) :
    Run σ (List Candidate) := do
  let whole ← Run.ofExcept (Candidate.make page.data typeName (.obj request.context))
  transform adjust request.transformation.value whole

def ofPages (adjust : Adjuster σ) (request : Request) (typeName : Value) :
    List Page → Run σ (List Candidate)
  | [] => Run.done []
  | page :: rest => do
    let first ← ofPage adjust request typeName page
    let others ← ofPages adjust request typeName rest
    return first ++ others

structure Origin where
  client : Value
  path : String
  method : Method
  typeName : Value

def Origin.invalid (o : Origin) : Event :=
  .notice (.invalidItem o.client o.path o.method.name o.typeName)

def validate (origin : Origin) : List Candidate → Run σ (List Item)
  | [] => Run.done []
  | c :: rest => do
    match Item.ofCandidate? c with
    | some item =>
      let items ← validate origin rest
      return item :: items
    | none =>
      Run.emit [origin.invalid]
      validate origin rest

def itemsOf (adjust : Adjuster σ) (request : Request) (origin : Origin)
    (mark : Candidate → Except Failure Candidate) : List Page → Run σ (List Item)
  | [] => Run.done []
  | page :: rest => do
    let candidates ← ofPage adjust request origin.typeName page
    let first ← validate origin (← Run.ofExcept (candidates.mapM mark))
    let others ← itemsOf adjust request origin mark rest
    return first ++ others

end Extraction

end Harvest
