import Harvest.Value

namespace Harvest

namespace Value

def only (names : List String) : Value → Value
  | obj members => obj (members.filter fun m => names.contains m.1)
  | v => v

end Value

/-- Cuts a member of a record, once spread out, down to the kind that it always has. -/
def Kind.cut (kind : Kind) (name : String) (v : Value) : Value :=
  match kind.memberKind? name with
  | some inner => v.only inner.memberNames
  | none => v

namespace Value

mutual

def full : Value → Value
  | arr items => arr (fullItems items)
  | obj members => obj (fullMembers members)
  | record kind members _ => obj (fullParts kind members)
  | v => v

def fullItems : List Value → List Value
  | [] => []
  | v :: rest => full v :: fullItems rest

def fullMembers : List (String × Value) → Fields
  | [] => []
  | (k, v) :: rest => (k, full v) :: fullMembers rest

def fullParts (kind : Kind) : List (String × Value) → Fields
  | [] => []
  | (k, v) :: rest => (k, kind.cut k (full v)) :: fullParts kind rest

end

mutual

def given : Value → Value
  | arr items => arr (givenItems items)
  | obj members => obj (givenMembers members)
  | record kind members names => obj (givenParts kind names members)
  | v => v

def givenItems : List Value → List Value
  | [] => []
  | v :: rest => given v :: givenItems rest

def givenMembers : List (String × Value) → Fields
  | [] => []
  | (k, v) :: rest => (k, given v) :: givenMembers rest

def givenParts (kind : Kind) (names : List String) : List (String × Value) → Fields
  | [] => []
  | (k, v) :: rest =>
    if names.contains k then (k, kind.cut k (given v)) :: givenParts kind names rest
    else givenParts kind names rest

end

mutual

/-- Spreads a record out with its given members, and the records among the items of a list; those
inside objects stay. -/
def opened : Value → Value
  | record kind members names => (record kind members names).given
  | arr items => arr (openedItems items)
  | v => v

def openedItems : List Value → List Value
  | [] => []
  | v :: rest => opened v :: openedItems rest

end

mutual

def isJson : Value → Bool
  | arr items => areJson items
  | obj members => areJsonMembers members
  | hook _ | record _ _ _ => false
  | _ => true

def areJson : List Value → Bool
  | [] => true
  | v :: rest => isJson v && areJson rest

def areJsonMembers : List (String × Value) → Bool
  | [] => true
  | (_, v) :: rest => isJson v && areJsonMembers rest

end

mutual

theorem full_of_isJson : ∀ v : Value, v.isJson = true → full v = v
  | .null, _ | .bool _, _ | .int _, _ | .double _, _ | .str _, _ => rfl
  | .arr items, h => by simp [full, fullItems_of_areJson items (by simpa [isJson] using h)]
  | .obj members, h => by simp [full, fullMembers_of_areJson members (by simpa [isJson] using h)]

theorem fullItems_of_areJson : ∀ items : List Value, areJson items = true →
    fullItems items = items
  | [], _ => rfl
  | v :: rest, h => by
    simp only [areJson, Bool.and_eq_true] at h
    simp [fullItems, full_of_isJson v h.1, fullItems_of_areJson rest h.2]

theorem fullMembers_of_areJson : ∀ members : List (String × Value),
    areJsonMembers members = true → fullMembers members = members
  | [], _ => rfl
  | (_, v) :: rest, h => by
    simp only [areJsonMembers, Bool.and_eq_true] at h
    simp [fullMembers, full_of_isJson v h.1, fullMembers_of_areJson rest h.2]

end

end Value

end Harvest
