import Harvest.Text.Hex

namespace Harvest.Link

def isOctet (cs : List Char) : Bool :=
  !cs.isEmpty && cs.all Char.isDigit && cs.length ≤ 3 && !(cs.length > 1 && cs.head? == some '0') &&
    Nat.ofDigitChars 10 cs 0 ≤ 255

def isVersion4 (cs : List Char) : Bool :=
  (cs.splitOn '.').length == 4 && (cs.splitOn '.').all isOctet

def isGroup (cs : List Char) : Bool :=
  !cs.isEmpty && cs.length ≤ 4 && cs.all Text.isHexDigit

def groupsOf (cs : List Char) : List (List Char) :=
  let parts := cs.splitOn ':'
  match parts.getLast? with
  | some last =>
    if last.contains '.' && isVersion4 last then parts.dropLast ++ [['0'], ['0']] else parts
  | none => parts

def fullGroups (groups : List (List Char)) : Bool :=
  groups.length == 8 && groups.all isGroup

/-- Groups on one side of a gap: none, or all of them proper. The outer end may be empty only if
nothing else is there. -/
def sideGroups (side : List (List Char)) : Bool :=
  side == [[]] || side.all isGroup

def countSide (side : List (List Char)) : Nat :=
  if side == [[]] then 0 else side.length

def cutAtGap (groups : List (List Char)) : Option (List (List Char) × List (List Char)) :=
  match (groups.drop 1).dropLast.findIdx? (·.isEmpty) with
  | some n => some (groups.take (n + 1), groups.drop (n + 2))
  | none => none

def isVersion6 (cs : List Char) : Bool :=
  let address := cs.takeWhile (· != '%')
  let zone := cs.dropWhile (· != '%')
  let groups := groupsOf address
  (zone.isEmpty || (zone.length > 1 && !(zone.drop 1).contains '%')) &&
    3 ≤ (address.splitOn ':').length &&
    match cutAtGap groups with
    | some (front, back) =>
      sideGroups front && sideGroups back && countSide front + countSide back < 8
    | none => fullGroups groups

def isFutureVersion (cs : List Char) : Bool :=
  match cs with
  | 'v' :: rest =>
    let tail := rest.dropWhile Text.isHexDigit
    !(rest.takeWhile Text.isHexDigit).isEmpty && tail.head? == some '.' && tail.length > 1
  | _ => false

def isNewAddress (cs : List Char) : Bool :=
  if cs.head? == some 'v' then isFutureVersion cs else isVersion6 cs

def afterUser (cs : List Char) : List Char :=
  (cs.reverse.takeWhile (· != '@')).reverse

/-- A host with its number behind a colon, if there are brackets somewhere: the host stands in
brackets, or in front of the colon if the brackets belong to the user. -/
def isHostWithBrackets (cs : List Char) : Bool :=
  match cs with
  | '[' :: rest =>
    let behind := (rest.dropWhile (· != ']')).drop 1
    isNewAddress (rest.takeWhile (· != ']')) && (behind.isEmpty || behind.head? == some ':')
  | cs => !cs.contains '[' && isNewAddress (cs.takeWhile (· != ':'))

/-- Characters whose compatibility form holds one of the delimiters `/?#@:`. -/
def hiddenDelimiters : List Nat :=
  [0x2047, 0x2048, 0x2049, 0x2100, 0x2101, 0x2105, 0x2106, 0x2A74, 0xFE13, 0xFE16, 0xFE55, 0xFE56,
   0xFE5F, 0xFE6B, 0xFF03, 0xFF0F, 0xFF1A, 0xFF1F, 0xFF20]

def isHost (cs : List Char) : Bool :=
  (cs.contains '[' == cs.contains ']') &&
    (!cs.contains '[' || isHostWithBrackets (afterUser cs)) &&
    !cs.any fun c => hiddenDelimiters.contains c.toNat

end Harvest.Link
