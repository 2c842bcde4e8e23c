import Harvest.Link.Host
import Harvest.Link.Query
import Harvest.Text.Blank

namespace Harvest

structure Link where
  path : String
  query : List Char

namespace Link

def isLeading (c : Char) : Bool :=
  c.toNat ≤ 0x20

def isIgnored (c : Char) : Bool :=
  c == '\t' || c == '\n' || c == '\r'

def isSchemeChar (c : Char) : Bool :=
  c.isAlphanum || c == '+' || c == '-' || c == '.'

def dropScheme (cs : List Char) : List Char :=
  let scheme := cs.takeWhile (· != ':')
  let tail := cs.dropWhile (· != ':')
  match scheme with
  | first :: _ =>
    if first.isAlpha && scheme.all isSchemeChar && !tail.isEmpty then tail.drop 1 else cs
  | [] => cs

def endsHost (c : Char) : Bool :=
  c == '/' || c == '?' || c == '#'

def splitHost : List Char → List Char × List Char
  | '/' :: '/' :: rest => (rest.takeWhile (! endsHost ·), rest.dropWhile (! endsHost ·))
  | cs => ([], cs)

def parse? (text : String) : Option Link :=
  let cs := ((text.toList.dropWhile isLeading).filter (! isIgnored ·))
  let (host, rest) := splitHost (dropScheme cs)
  let rest := rest.takeWhile (· != '#')
  if isHost host then
    some ⟨String.ofList (rest.takeWhile (· != '?')), (rest.dropWhile (· != '?')).drop 1⟩
  else none

def samePath (current next : String) : Bool :=
  Text.trimEnd (· == '/') current.toList == Text.trimEnd (· == '/') next.toList

end Link

end Harvest
