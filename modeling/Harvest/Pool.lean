import Harvest.Notice

namespace Harvest.Pool

/-- A root of arguments. One that is no text can be asked for, but nothing stands under it. -/
inductive Root where
  | named (name : String)
  | other (shown : String)
deriving DecidableEq

def Root.ofValue (v : Value) : Except Failure Root := do
  match ← v.key with
  | some name => return named name
  | none => return other v.text

def Root.text : Root → String
  | named name => name
  | other shown => shown

def rootsIn (v : Value) : Except Failure (List Root) := do
  (← v.iterated).mapM Root.ofValue

def candidatesIn (v : Value) : Except Failure (List Value) :=
  if v.isBlank then .ok [] else v.iterated

def candidates (pool : Value) (root : Root) : Except Failure (List Value) :=
  match pool, root with
  | .obj members, .named name => candidatesIn ((Members.get? members name).getD .null)
  | .obj _, .other _ => .ok []
  | _, _ => .error .shapeless

def choices (pool : Value) : List Root → Noted (Option (List (String × List Value)))
  | [] => pure (some [])
  | root :: rest => do
    let values ← Noted.lift (candidates pool root)
    if values.isEmpty then
      Noted.note (.noCandidates root.text)
      return none
    else return (← choices pool rest).map ((root.text, values) :: ·)

/-- All ways to take one value for each root, the last root varying fastest. -/
def product : List (String × List Value) → List Fields
  | [] => [[]]
  | (root, values) :: rest => values.flatMap fun v => (product rest).map ((root, v) :: ·)

def contexts (pool : Value) (roots : List Root) : Noted (List Fields) := do
  match ← choices pool roots.eraseDups with
  | some choices => return product choices
  | none => return []

def allRoots : Value → Except Failure (List Root)
  | .obj members => .ok ((Members.keys members).map .named)
  | .arr [] | .str "" => .ok []
  | .arr _ | .str _ => .error .shapeless
  | _ => .error .misfit

theorem length_product (choices : List (String × List Value)) :
    (product choices).length = choices.foldr (fun c n => c.2.length * n) 1 := by
  induction choices with
  | nil => rfl
  | cons choice rest ih =>
    simp [product, List.length_flatMap, ih, List.map_const']

end Harvest.Pool
