import Harvest.Text.Blank
import Harvest.Text.Digit

namespace Harvest.Text

def grouped (digit? : Char → Option Nat) : List Char → Option (List Nat)
  | [] => none
  | [c] => (digit? c).map ([·])
  | c :: '_' :: rest => do return (← digit? c) :: (← grouped digit? rest)
  | c :: rest => do return (← digit? c) :: (← grouped digit? rest)

def ofDigits (digits : List Nat) : Nat :=
  digits.foldl (fun n d => 10 * n + d) 0

def signed : List Char → Bool × List Char
  | '-' :: rest => (true, rest)
  | '+' :: rest => (false, rest)
  | cs => (false, cs)

def withSign (negative : Bool) (n : Nat) : Int :=
  if negative then -(n : Int) else n

/-- Numbers with more digits than this are refused. -/
def digitLimit : Nat := 4300

def natOf? (digits : List Nat) : Option Nat :=
  if digits.length ≤ digitLimit then some (ofDigits digits) else none

def readInt? (text : String) : Option Int := do
  let (negative, body) := signed (trim text.toList)
  let digits ← grouped decimalValue? body
  return withSign negative (← natOf? digits)

end Harvest.Text
