import Harvest.Members
import Harvest.Text.Hex
import Harvest.Text.Utf8

namespace Harvest.Link

def byte? (high low : Char) : Option Nat :=
  match Text.hexDigit? high, Text.hexDigit? low with
  | some h, some l => some (16 * h + l)
  | _, _ => none

def bytes : List Char → List Nat
  | '%' :: high :: low :: rest =>
    match byte? high low with
    | some b => b :: bytes rest
    | none => '%'.toNat :: bytes (high :: low :: rest)
  | c :: rest => c.toNat :: bytes rest
  | [] => []

def isAscii (c : Char) : Bool :=
  c.toNat < 0x80

/-- Decodes text, `run` being the ASCII characters since the last other one, backwards. Other
characters stand for themselves, and no encoded character reaches over them. -/
def unescapeFrom : List Char → List Char → List Char
  | run, [] => Text.Utf8.decode (bytes run.reverse)
  | run, c :: rest =>
    if isAscii c then unescapeFrom (c :: run) rest
    else Text.Utf8.decode (bytes run.reverse) ++ c :: unescapeFrom [] rest

def unescape (cs : List Char) : String :=
  String.ofList (unescapeFrom [] (cs.map fun c => if c = '+' then ' ' else c))

def argument (piece : List Char) : String × String :=
  (unescape (piece.takeWhile (· != '=')), unescape ((piece.dropWhile (· != '=')).drop 1))

def queryPairs (query : List Char) : List (String × String) :=
  ((query.splitOn '&').filter (! ·.isEmpty)).map argument

def queryArguments (query : List Char) : List (String × String) :=
  Members.putAll [] (queryPairs query)

end Harvest.Link
