import Harvest.Decimal.Shortest
import Harvest.Text.Quoted
import Harvest.Value

namespace Harvest.Value

def separated (parts : List (List Char)) : List Char :=
  List.intercalate [',', ' '] parts

def shownMethod : Value → List Char
  | str s =>
    "<HTTPMethod.".toList ++ s.toList.map Char.toUpper ++ ':' :: ' ' :: Text.quoted s ++ ['>']
  | _ => []

mutual

def shown : Value → List Char
  | null => "None".toList
  | bool b => (if b then "True" else "False").toList
  | int n => (toString n).toList
  | double d => d.written
  | str s => Text.quoted s
  | arr items => '[' :: separated (shownItems items) ++ [']']
  | obj members => '\x7b' :: separated (shownMembers members) ++ ['\x7d']
  | hook _ => "$adjust".toList
  | record kind members _ => kind.name.toList ++ '(' :: separated (shownParts members) ++ [')']

def shownItems : List Value → List (List Char)
  | [] => []
  | v :: rest => shown v :: shownItems rest

def shownMembers : List (String × Value) → List (List Char)
  | [] => []
  | (k, v) :: rest => (Text.quoted k ++ ':' :: ' ' :: shown v) :: shownMembers rest

def shownParts : List (String × Value) → List (List Char)
  | [] => []
  | (k, v) :: rest =>
    (k.toList ++ '=' :: if k == "method" then shownMethod v else shown v) :: shownParts rest

end

def text : Value → String
  | str s => s
  | record _ members _ => String.ofList (List.intercalate [' '] (shownParts members))
  | v => String.ofList (shown v)

def shownNames (names : List String) : String :=
  (strings names).text

end Harvest.Value
