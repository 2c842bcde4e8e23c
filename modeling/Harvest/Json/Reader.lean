import Harvest.Text.Hex
import Harvest.Value

namespace Harvest.Json.Reader

open Decimal (Double)

def isSpace (c : Char) : Bool :=
  c == ' ' || c == '\n' || c == '\r' || c == '\t'

def skip (cs : List Char) : List Char :=
  cs.dropWhile isSpace

def unit? (a b c d : Char) : Option Nat := do
  return (((← Text.hexDigit? a) * 16 + (← Text.hexDigit? b)) * 16 + (← Text.hexDigit? c)) * 16 +
    (← Text.hexDigit? d)

def simpleEscape? : Char → Option Char
  | '"' => some '"'
  | '\\' => some '\\'
  | '/' => some '/'
  | 'n' => some '\n'
  | 'r' => some '\r'
  | 't' => some '\t'
  | 'b' => some '\x08'
  | 'f' => some '\x0c'
  | _ => none

def joined (high low : Nat) : Char :=
  Char.ofNat (0x10000 + (high - 0xD800) * 0x400 + (low - 0xDC00))

def string? (acc : List Char) : List Char → Option (String × List Char)
  | '"' :: rest => some (String.ofList acc.reverse, rest)
  | '\\' :: 'u' :: a :: b :: c :: d :: tail =>
    match unit? a b c d with
    | none => none
    | some first =>
      if 0xD800 ≤ first && first < 0xDC00 then
        match tail with
        | '\\' :: 'u' :: e :: f :: g :: h :: rest => do
          string? (joined first (← unit? e f g h) :: acc) rest
        | _ => none
      else string? (Char.ofNat first :: acc) tail
  | '\\' :: c :: rest => do string? ((← simpleEscape? c) :: acc) rest
  | c :: rest => string? (c :: acc) rest
  | [] => none

def number? (negative : Bool) (cs : List Char) : Option (Value × List Char) :=
  let whole := cs.takeWhile Char.isDigit
  let rest := cs.dropWhile Char.isDigit
  let (decimals, rest, pointed) := match rest with
    | '.' :: more => (more.takeWhile Char.isDigit, more.dropWhile Char.isDigit, true)
    | _ => ([], rest, false)
  let exponent (negative : Bool) (more : List Char) : Int × List Char × Bool :=
    let n : Int := Nat.ofDigitChars 10 (more.takeWhile Char.isDigit) 0
    (if negative then -n else n, more.dropWhile Char.isDigit, true)
  let (power, rest, scaled) := match rest with
    | 'e' :: '-' :: more | 'E' :: '-' :: more => exponent true more
    | 'e' :: '+' :: more | 'E' :: '+' :: more => exponent false more
    | 'e' :: more | 'E' :: more => exponent false more
    | _ => (0, rest, false)
  if whole.isEmpty then none
  else if pointed || scaled then do
    let d ← Double.ofDecimal? negative (Nat.ofDigitChars 10 (whole ++ decimals) 0)
      (power - decimals.length)
    return (.double d, rest)
  else
    let n : Int := Nat.ofDigitChars 10 whole 0
    some (.int (if negative then -n else n), rest)

mutual

def value? : Nat → List Char → Option (Value × List Char)
  | 0, _ => none
  | fuel + 1, cs =>
    match skip cs with
    | 'n' :: 'u' :: 'l' :: 'l' :: rest => some (.null, rest)
    | 't' :: 'r' :: 'u' :: 'e' :: rest => some (.bool true, rest)
    | 'f' :: 'a' :: 'l' :: 's' :: 'e' :: rest => some (.bool false, rest)
    | '"' :: rest => do
      let (s, rest) ← string? [] rest
      return (.str s, rest)
    | '[' :: rest =>
      match skip rest with
      | ']' :: rest => some (.arr [], rest)
      | rest => do
        let (items, rest) ← items? fuel rest
        return (.arr items, rest)
    | '\x7b' :: rest =>
      match skip rest with
      | '\x7d' :: rest => some (.obj [], rest)
      | rest => do
        let (members, rest) ← members? fuel rest
        return (.obj members, rest)
    | '-' :: rest => number? true rest
    | rest => number? false rest

def items? : Nat → List Char → Option (List Value × List Char)
  | 0, _ => none
  | fuel + 1, cs => do
    let (v, rest) ← value? fuel cs
    match skip rest with
    | ',' :: rest =>
      let (more, rest) ← items? fuel rest
      return (v :: more, rest)
    | ']' :: rest => return ([v], rest)
    | _ => none

def members? : Nat → List Char → Option (List (String × Value) × List Char)
  | 0, _ => none
  | fuel + 1, cs => do
    match skip cs with
    | '"' :: rest =>
      let (k, rest) ← string? [] rest
      match skip rest with
      | ':' :: rest =>
        let (v, rest) ← value? fuel rest
        match skip rest with
        | ',' :: rest =>
          let (more, rest) ← members? fuel rest
          return ((k, v) :: more, rest)
        | '\x7d' :: rest => return ([(k, v)], rest)
        | _ => none
      | _ => none
    | _ => none

end

end Harvest.Json.Reader

namespace Harvest

def Json.read? (text : String) : Option Value := do
  let cs := text.toList
  let (v, rest) ← Json.Reader.value? (cs.length + 1) cs
  if (Json.Reader.skip rest).isEmpty then return v else none

end Harvest
