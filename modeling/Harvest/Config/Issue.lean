import Harvest.Value.Canonical
import Harvest.Value.Shown

namespace Harvest.Config

inductive Step where
  | name (s : String)
  | index (n : Int)
deriving DecidableEq

inductive Complaint where
  | missing
  | unknownName
  | notText
  | tooShort
  | notFlag
  | unreadableFlag
  | notInteger
  | unreadableInteger
  | fractional
  | tooLarge
  | notObject
  | notList
  | notRecord (kind : Kind)
  | notMethod
  | notHook
deriving DecidableEq

def Complaint.code : Complaint → String
  | missing => "missing"
  | unknownName => "extra_forbidden"
  | notText => "string_type"
  | tooShort => "string_too_short"
  | notFlag => "bool_type"
  | unreadableFlag => "bool_parsing"
  | notInteger => "int_type"
  | unreadableInteger => "int_parsing"
  | fractional => "int_from_float"
  | tooLarge => "int_parsing_size"
  | notObject => "dict_type"
  | notList => "list_type"
  | notRecord _ => "model_type"
  | notMethod => "enum"
  | notHook => "callable_type"

def Complaint.summary : Complaint → String
  | missing => "Field required"
  | unknownName => "Extra inputs are not permitted"
  | notText => "Input should be a valid string"
  | tooShort => "String should have at least 1 character"
  | notFlag => "Input should be a valid boolean"
  | unreadableFlag => "Input should be a valid boolean, unable to interpret input"
  | notInteger => "Input should be a valid integer"
  | unreadableInteger => "Input should be a valid integer, unable to parse string as an integer"
  | fractional => "Input should be a valid integer, got a number with a fractional part"
  | tooLarge => "Unable to parse input string as an integer, exceeded maximum size"
  | notObject => "Input should be a valid dictionary"
  | notList => "Input should be a valid list"
  | notRecord kind => "Input should be a valid dictionary or instance of " ++ kind.name
  | notMethod => "Input should be 'get', 'head', 'options', 'post', 'put', 'patch' or 'delete'"
  | notHook => "Input should be callable"

structure Issue where
  location : List Step
  complaint : Complaint
  input : Value

def Issue.under (step : Step) (issue : Issue) : Issue :=
  { issue with location := step :: issue.location }

def Step.text : Step → String
  | name s => if s.toList.contains '.' then "\x60" ++ s ++ "\x60" else s
  | index n => toString n

def frontWithin : Nat → List Char → List Char
  | _, [] => []
  | bytes, c :: rest =>
    if c.utf8Size ≤ bytes then c :: frontWithin (bytes - c.utf8Size) rest else []

def shorten (cs : List Char) : List Char :=
  if (cs.map Char.utf8Size).foldl (· + ·) 0 ≤ 50 then cs
  else frontWithin 25 cs ++ ['.', '.', '.'] ++ (frontWithin 24 cs.reverse).reverse

/-- How a value is shown in a report. Of one that cannot be written only the kind is. -/
def shownInput (v : Value) : List Char :=
  if v.isWritable then v.shown else ("<unprintable " ++ v.kindName ++ " object>").toList

def Issue.lines (issue : Issue) : List String :=
  let found := String.ofList (shorten (shownInput issue.input))
  let place := ".".intercalate (issue.location.map Step.text)
  let line := "  " ++ issue.complaint.summary ++ " [type=" ++ issue.complaint.code ++
    ", input_value=" ++ found ++ ", input_type=" ++ issue.input.kindName ++ "]"
  if issue.location.isEmpty then [line] else [place, line]

inductive Checked (α : Type) where
  | ok (a : α)
  | rejected (issues : List Issue)

namespace Checked

variable {α β : Type}

def map (f : α → β) : Checked α → Checked β
  | ok a => ok (f a)
  | rejected issues => rejected issues

def apply (f : Checked (α → β)) (a : Checked α) : Checked β :=
  match f, a with
  | ok f, ok a => ok (f a)
  | ok _, rejected issues => rejected issues
  | rejected issues, ok _ => rejected issues
  | rejected first, rejected second => rejected (first ++ second)

instance : Applicative Checked where
  pure := ok
  map := map
  seq f a := apply f (a ())

def under (step : Step) : Checked α → Checked α
  | ok a => ok a
  | rejected issues => rejected (issues.map (·.under step))

def ofList : Nat → List (Checked α) → Checked (List α)
  | _, [] => ok []
  | n, a :: rest => apply (map List.cons (a.under (.index n))) (ofList (n + 1) rest)

end Checked

end Harvest.Config
