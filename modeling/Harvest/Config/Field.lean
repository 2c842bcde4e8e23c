import Harvest.Config.Issue
import Harvest.Text.Whole

namespace Harvest.Config

open Decimal (Double)

namespace Field

variable {α : Type}

def refuse (complaint : Complaint) (v : Value) : Checked α :=
  .rejected [⟨[], complaint, v⟩]

def any (v : Value) : Checked Value :=
  .ok v

def text : Value → Checked String
  | .str s => .ok s
  | v => refuse .notText v

def name : Value → Checked String
  | .str s => if s == "" then refuse .tooShort (.str s) else .ok s
  | v => refuse .notText v

def flagOfWord? : String → Option Bool
  | "0" | "off" | "f" | "false" | "n" | "no" => some false
  | "1" | "on" | "t" | "true" | "y" | "yes" => some true
  | _ => none

def flagOfInt? : Int → Option Bool
  | 0 => some false
  | 1 => some true
  | _ => none

def found (v : Value) : Option Bool → Checked Bool
  | some b => .ok b
  | none => refuse .unreadableFlag v

def isWord (n : Int) : Bool :=
  -(Nat.pow 2 63 : Nat) ≤ n && n < (Nat.pow 2 63 : Nat)

def wordOf? (d : Double) : Option Int :=
  if d.isWhole && d.truncate.natAbs < Nat.pow 2 63 then some d.truncate else none

/-- Fractions and integers beyond 64 bits are no flags at all; other numbers and all texts might be.
-/
def flag : Value → Checked Bool
  | .bool b => .ok b
  | .int n => if isWord n then found (.int n) (flagOfInt? n) else refuse .notFlag (.int n)
  | .double d =>
    match wordOf? d with
    | some n => found (.double d) (flagOfInt? n)
    | none => refuse .notFlag (.double d)
  | .str s => found (.str s) (flagOfWord? (s.map Char.toLower))
  | v => refuse .notFlag v

def integer : Value → Checked Int
  | .int n => .ok n
  | .bool b => .ok (if b then 1 else 0)
  | .double d =>
    match wordOf? d with
    | some n => .ok n
    | none => refuse (if d.isWhole then .tooLarge else .fractional) (.double d)
  | .str s =>
    match Text.Whole.ofText s with
    | .number n => .ok n
    | .tooLong => refuse .tooLarge (.str s)
    | .unreadable => refuse .unreadableInteger (.str s)
  | v => refuse .notInteger v

def object : Value → Checked Fields
  | .obj members => .ok members
  | v => refuse .notObject v

def stepTo : Value → Step
  | .str s => .name s
  | .int n => if isWord n then .index n else .name (String.ofList (shownInput (.int n)))
  | .bool b => .index (if b then 1 else 0)
  | v => .name (String.ofList (shownInput v))

def pairName (v : Value) : Checked String :=
  ((text v).under (.name "[key]")).under (stepTo v)

def textPairs (pairs : List (Value × Value)) : Checked (List (String × String)) :=
  pairs.foldr (fun p rest =>
    (fun name s others => (name, s) :: others) <$> pairName p.1 <*> (text p.2).under (stepTo p.1)
      <*> rest) (.ok [])

def textObject : Value → Checked (List (String × String))
  | .obj members => textPairs (members.map fun m => (.str m.1, m.2))
  | v => refuse .notObject v

/-- A list of texts. A record is taken for the list of its pairs, of which none is a text. -/
def textList : Value → Checked (List String)
  | .arr items => .ofList 0 (items.map text)
  | .record _ members _ => .ofList 0 ((Value.entries members).map text)
  | v => refuse .notList v

def hook : Value → Checked Hook
  | .hook h => .ok h
  | v => refuse .notHook v

def orNull (read : Value → Checked α) : Value → Checked (Option α)
  | .null => .ok none
  | v => .map some (read v)

def required (members : Fields) (name : String) (read : Value → Checked α) : Checked α :=
  match Members.get? members name with
  | some v => (read v).under (.name name)
  | none => .rejected [⟨[.name name], .missing, .obj members⟩]

def optional (members : Fields) (name : String) (default : α) (read : Value → Checked α) :
    Checked α :=
  match Members.get? members name with
  | some v => (read v).under (.name name)
  | none => .ok default

def only (names : List String) (members : Fields) : Checked Unit :=
  match members.filter fun m => !names.contains m.1 with
  | [] => .ok ()
  | others => .rejected (others.map fun m => ⟨[.name m.1], .unknownName, m.2⟩)

end Field

end Harvest.Config
