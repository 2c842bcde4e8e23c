import Harvest.Failure
import Harvest.Text.Word
import Harvest.Value.Path

namespace Harvest.Template

def isNameChar (c : Char) : Bool :=
  Text.isWord c || c == '.' || c == '-'

inductive Piece where
  | char (c : Char)
  | hole (name : String)
deriving DecidableEq

def unfinished (name : List Char) : List Piece :=
  (('\x7b' :: name.reverse).map .char)

/-- Cuts characters into pieces. `pending` holds the characters since an opening brace, the last one
first, as long as they may become a name. -/
def cut : Option (List Char) → List Char → List Piece
  | none, [] => []
  | some name, [] => unfinished name
  | none, c :: rest => if c = '\x7b' then cut (some []) rest else .char c :: cut none rest
  | some name, c :: rest =>
    if isNameChar c then cut (some (c :: name)) rest
    else if c = '\x7d' ∧ name ≠ [] then .hole (String.ofList name.reverse) :: cut none rest
    else if c = '\x7b' then unfinished name ++ cut (some []) rest
    else unfinished name ++ .char c :: cut none rest

/-- Discovery and filling both go over the pieces of a string, which is cut only once: what is put
in is not looked at again. -/
def pieces (s : String) : List Piece :=
  cut none s.toList

def Piece.source : Piece → List Char
  | .char c => [c]
  | .hole name => '\x7b' :: name.toList ++ ['\x7d']

def holes (ps : List Piece) : List String :=
  ps.filterMap fun
    | .char _ => none
    | .hole name => some name

mutual

def names : Value → List String
  | .str s => holes (pieces s)
  | .arr items => namesOfItems items
  | .obj members => namesOfMembers members
  | _ => []

def namesOfItems : List Value → List String
  | [] => []
  | v :: rest => names v ++ namesOfItems rest

def namesOfMembers : List (String × Value) → List String
  | [] => []
  | (_, v) :: rest => names v ++ namesOfMembers rest

end

def placeholders (v : Value) : List String :=
  (names v).eraseDups

def root (name : String) : String :=
  String.ofList (name.toList.takeWhile (· != '.'))

def roots (names : List String) : List String :=
  ((names.map root).filter (· != "")).eraseDups

/-- A filled value with the names for which there was none, as often as they were met. -/
structure Filled (α : Type) where
  value : α
  missing : List String

def found? (context : Value) (name : String) : Except Failure (Option Value) :=
  (Value.lookup context name).mapError fun _ => .unreadable

def fillPieces (context : Value) : List Piece → Except Failure (Filled (List Char))
  | [] => .ok ⟨[], []⟩
  | .char c :: rest => do
    let filled ← fillPieces context rest
    return ⟨c :: filled.value, filled.missing⟩
  | .hole name :: rest => do
    match ← found? context name with
    | some v =>
      let text ← v.asText
      let filled ← fillPieces context rest
      return ⟨text.toList ++ filled.value, filled.missing⟩
    | none =>
      let filled ← fillPieces context rest
      return ⟨(Piece.hole name).source ++ filled.value, name :: filled.missing⟩

def fillString (context : Value) (s : String) : Except Failure (Filled Value) :=
  match pieces s with
  | [.hole name] => do
    match ← found? context name with
    | some v => return ⟨v, []⟩
    | none => return ⟨.str s, [name]⟩
  | ps => do
    let filled ← fillPieces context ps
    return ⟨.str (String.ofList filled.value), filled.missing⟩

mutual

def fill (context : Value) : Value → Except Failure (Filled Value)
  | .str s => fillString context s
  | .arr items => do
    let filled ← fillItems context items
    return ⟨.arr filled.value, filled.missing⟩
  | .obj members => do
    let filled ← fillMembers context members
    return ⟨.obj filled.value, filled.missing⟩
  | v => .ok ⟨v, []⟩

def fillItems (context : Value) : List Value → Except Failure (Filled (List Value))
  | [] => .ok ⟨[], []⟩
  | v :: rest => do
    let first ← fill context v
    let others ← fillItems context rest
    return ⟨first.value :: others.value, first.missing ++ others.missing⟩

def fillMembers (context : Value) : List (String × Value) → Except Failure (Filled Fields)
  | [] => .ok ⟨[], []⟩
  | (k, v) :: rest => do
    let first ← fill context v
    let others ← fillMembers context rest
    return ⟨(k, first.value) :: others.value, first.missing ++ others.missing⟩

end

end Harvest.Template
