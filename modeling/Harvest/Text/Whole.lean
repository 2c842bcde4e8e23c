import Harvest.Text.Integer

namespace Harvest.Text

inductive Whole where
  | number (n : Int)
  | tooLong
  | unreadable
deriving DecidableEq

namespace Whole

def ofDigits (negative : Bool) (cs : List Char) : Whole :=
  let digits := cs.takeWhile Char.isDigit
  if digits.isEmpty then unreadable
  else if digitLimit < digits.length then tooLong
  else if digits.length < cs.length then unreadable
  else number (withSign negative (Nat.ofDigitChars 10 digits 0))

def ofStrict : List Char → Whole
  | ['0'] | ['-', '0'] => number 0
  | '0' :: _ | '-' :: '0' :: _ => unreadable
  | '-' :: cs => ofDigits true cs
  | cs => ofDigits false cs

/-- Passes over zeros and low lines behind a zero; `last` is the character before the rest. A point
keeps the character before it. -/
def dropZeros (last : Char) : List Char → Option (List Char)
  | [] => some [last]
  | c :: rest =>
    if c = '0' ∨ c = '_' then dropZeros c rest
    else if c = '.' then some (last :: c :: rest)
    else if c = '-' ∨ c.isDigit then some (c :: rest)
    else none

def dropLeading : List Char → Option (List Char)
  | [] => none
  | c :: rest => if c = '0' then dropZeros c rest else if c.isDigit then some (c :: rest) else none

def dropDecimals (cs : List Char) : List Char :=
  match cs.dropWhile (· != '.') with
  | _ :: d :: decimals =>
    if (d :: decimals).all (· == '0') then cs.takeWhile (· != '.') else cs
  | _ => cs

def dropLines (cs : List Char) : Option (List Char) :=
  if (cs.splitOn '_').all (! ·.isEmpty) then some (cs.filter (· != '_')) else none

def tidied? (cs : List Char) : Option (List Char) := do
  let (negative, body) := signed (trim cs)
  let digits ← dropLines (dropDecimals (← dropLeading body))
  return if negative then '-' :: digits else digits

/-- A number is taken at its word first. What is not written that way is tidied once: blanks around
it, a plus, leading zeros, zeros behind a point and low lines are removed. -/
def ofText (text : String) : Whole :=
  match ofStrict text.toList with
  | unreadable =>
    match (tidied? text.toList).map ofStrict with
    | some (number n) => number n
    | _ => unreadable
  | read => read

end Whole

end Harvest.Text
