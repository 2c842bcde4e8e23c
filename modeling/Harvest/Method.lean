import Harvest.Config.Field

namespace Harvest

inductive Method where
  | get
  | head
  | options
  | post
  | put
  | patch
  | delete
deriving DecidableEq

namespace Method

def name : Method → String
  | get => "get"
  | head => "head"
  | options => "options"
  | post => "post"
  | put => "put"
  | patch => "patch"
  | delete => "delete"

def verb (m : Method) : String :=
  m.name.map Char.toUpper

def all : List Method :=
  [get, head, options, post, put, patch, delete]

def ofName? (s : String) : Option Method :=
  all.find? (·.name == s.map Char.toLower)

theorem ofName?_name (m : Method) : ofName? m.name = some m := by
  cases m <;> decide +kernel

end Method

namespace Config

def Field.method : Value → Checked Method
  | .str s =>
    match Method.ofName? s with
    | some m => .ok m
    | none => refuse .notMethod (.str s)
  | v => refuse .notMethod v

end Config

def Value.ofMethod (m : Method) : Value :=
  .str m.name

end Harvest
