import Harvest.Decimal.Shortest
import Harvest.Text.Hex
import Harvest.Text.Integer
import Harvest.Value.Sorted

namespace Harvest.Value

def surrogates (n : Nat) : Nat × Nat :=
  (0xD800 + (n - 0x10000) / 0x400, 0xDC00 + (n - 0x10000) % 0x400)

def escapeUnit (n : Nat) : List Char :=
  '\\' :: 'u' :: Text.hex 4 n

/-- A code point as it stands between quotes. A surrogate by itself, which a `String` never holds,
is written like one of a pair. -/
def escapePoint (n : Nat) : List Char :=
  if n == 0x22 || n == 0x5C then ['\\', Char.ofNat n]
  else if n == 0x0A then ['\\', 'n']
  else if n == 0x0D then ['\\', 'r']
  else if n == 0x09 then ['\\', 't']
  else if n == 0x08 then ['\\', 'b']
  else if n == 0x0C then ['\\', 'f']
  else if 0x20 ≤ n && n < 0x7F then [Char.ofNat n]
  else if n < 0x10000 then escapeUnit n
  else escapeUnit (surrogates n).1 ++ escapeUnit (surrogates n).2

def canonicalPoints (points : List Nat) : List Char :=
  '"' :: points.flatMap escapePoint ++ ['"']

def canonicalString (s : String) : List Char :=
  canonicalPoints (s.toList.map Char.toNat)

mutual

def canonical : Value → List Char
  | null => "null".toList
  | bool b => (if b then "true" else "false").toList
  | int n => (toString n).toList
  | double d => d.written
  | str s => canonicalString s
  | arr items => '[' :: List.intercalate [',', ' '] (canonicalItems items) ++ [']']
  | hook _ => canonicalString "$adjust"
  | obj members | record _ members _ =>
    '\x7b' :: List.intercalate [',', ' '] ((sortByName (canonicalMembers members)).map (·.2)) ++
      ['\x7d']

def canonicalItems : List Value → List (List Char)
  | [] => []
  | v :: rest => canonical v :: canonicalItems rest

def canonicalMembers : List (String × Value) → List (String × List Char)
  | [] => []
  | (k, v) :: rest => (k, canonicalString k ++ ':' :: ' ' :: canonical v) :: canonicalMembers rest

end

mutual

/-- Whether the value can be written: an integer must not have too many digits. -/
def isWritable : Value → Bool
  | int n => (Nat.toDigits 10 n.natAbs).length ≤ Text.digitLimit
  | arr items => areWritable items
  | obj members | record _ members _ => areWritableMembers members
  | _ => true

def areWritable : List Value → Bool
  | [] => true
  | v :: rest => isWritable v && areWritable rest

def areWritableMembers : List (String × Value) → Bool
  | [] => true
  | (_, v) :: rest => isWritable v && areWritableMembers rest

end

def compress (v : Value) : String :=
  String.ofList (canonical v)

end Harvest.Value
