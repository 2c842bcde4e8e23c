import Harvest.Decimal.Double
import Harvest.Kind
import Harvest.Members

namespace Harvest

open Decimal (Double)

structure Hook where
  id : Nat
deriving DecidableEq

/-- JSON data in which two more things may stand: a hook, which is code, and a record, which was
read and checked before. A record is no object, and nothing looks for its members by name. -/
inductive Value where
  | null
  | bool (b : Bool)
  | int (n : Int)
  | double (d : Double)
  | str (s : String)
  | arr (items : List Value)
  | obj (members : List (String × Value))
  | hook (h : Hook)
  /-- All members of a record, defaults included, and the names of those that were given for it. -/
  | record (kind : Kind) (members : List (String × Value)) (given : List String)
deriving Inhabited

abbrev Fields := List (String × Value)

namespace Value

/-- Null, false, a zero, or an empty string, list or object: where a value is optional, these count
as not given. -/
def isBlank : Value → Bool
  | null => true
  | bool b => !b
  | int n => n == 0
  | double d => d.isZero
  | str s => s == ""
  | arr items => items.isEmpty
  | obj members => members.isEmpty
  | hook _ | record _ _ _ => false

def kindName : Value → String
  | null => "NoneType"
  | bool _ => "bool"
  | int _ => "int"
  | double _ => "float"
  | str _ => "str"
  | arr _ => "list"
  | obj _ => "dict"
  | hook _ => "function"
  | record kind _ _ => kind.name

def text? : Value → Option String
  | str s => some s
  | _ => none

def entries (members : Fields) : List Value :=
  members.map fun m => arr [str m.1, m.2]

/-- What a loop over a value goes through: the items of a list, the characters of a text, the names
of an object, the pairs of names and values of a record. -/
def iterated? : Value → Option (List Value)
  | arr items => some items
  | str s => some (s.toList.map fun c => str (String.singleton c))
  | obj members => some (members.map fun m => str m.1)
  | record _ members _ => some (entries members)
  | _ => none

mutual

def isKey : Value → Bool
  | arr _ | obj _ => false
  | record _ members _ => areKeys members
  | _ => true

def areKeys : List (String × Value) → Bool
  | [] => true
  | (_, v) :: rest => isKey v && areKeys rest

end

def ofNat (n : Nat) : Value :=
  int n

def ofOption {α : Type} (write : α → Value) : Option α → Value
  | none => null
  | some a => write a

def strings (texts : List String) : Value :=
  arr (texts.map str)

end Value

end Harvest
