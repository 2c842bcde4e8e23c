import Harvest.Value

namespace Harvest

def insertBy {α : Type} (less : α → α → Bool) (a : α) : List α → List α
  | [] => [a]
  | b :: rest => if less b a then b :: insertBy less a rest else a :: b :: rest

def sortBy {α : Type} (less : α → α → Bool) (items : List α) : List α :=
  items.foldr (insertBy less) []

def sortByName {α : Type} (ms : List (String × α)) : List (String × α) :=
  sortBy (fun a b => a.1 < b.1) ms

def sortTexts (texts : List String) : List String :=
  sortBy (fun a b => a < b) texts

section Partial

variable {α : Type} (less? : α → α → Option Bool)

def placeIn? (item : α) (sorted : List α) (low high : Nat) : Option Nat :=
  if low < high then do
    let middle := low + (high - low) / 2
    if ← less? item (← sorted[middle]?) then placeIn? item sorted low middle
    else placeIn? item sorted (middle + 1) high
  else some low
termination_by high - low

def insert? (sorted : List α) (item : α) : Option (List α) :=
  (placeIn? less? item sorted 0 sorted.length).map fun n =>
    sorted.take n ++ item :: sorted.drop n

/-- The items that continue a run, and the others. In a run that goes down, every item is less than
the one before it. -/
def splitRun? (down : Bool) : α → List α → Option (List α × List α)
  | _, [] => some ([], [])
  | last, item :: rest => do
    if (← less? item last) == down then
      let (run, others) ← splitRun? down item rest
      return (item :: run, others)
    else return ([], item :: rest)

/-- A pair that cannot be compared spoils the sorting only if it is compared at all. Hence the fixed
method: a run at the front is taken as it is, or turned round if it goes down, and each further item
is put in its place by halving. -/
def sort? : List α → Option (List α)
  | first :: second :: rest => do
    let down ← less? second first
    let (run, others) ← splitRun? less? down second rest
    let run := first :: second :: run
    others.foldlM (insert? less?) (if down then run.reverse else run)
  | items => some items

end Partial

namespace Value

/-- The size of a number, in units that make every number a whole one; a flag counts as a number. -/
def magnitude? : Value → Option Int
  | bool b => some (if b then Decimal.unitsPerOne else 0)
  | int n => some (n * Decimal.unitsPerOne)
  | double d => some (if d.negative then -(d.units : Int) else d.units)
  | _ => none

mutual

def same : Value → Value → Bool
  | null, null => true
  | str a, str b => a == b
  | arr as, arr bs => sameItems as bs
  | obj as, obj bs => as.length == bs.length && sameMembers as bs
  | hook g, hook h => g == h
  | record kind as _, record other bs _ => kind == other && sameMembers as bs
  | a, b =>
    match magnitude? a, magnitude? b with
    | some m, some n => m == n
    | _, _ => false

def sameItems : List Value → List Value → Bool
  | [], [] => true
  | a :: as, b :: bs => same a b && sameItems as bs
  | _, _ => false

def sameMembers : List (String × Value) → Fields → Bool
  | [], _ => true
  | (name, a) :: as, bs =>
    (match Members.get? bs name with
      | some b => same a b
      | none => false) && sameMembers as bs

end

mutual

def less? : Value → Value → Option Bool
  | str a, str b => some (a < b)
  | arr as, arr bs => lessItems? as bs
  | a, b => do return (← magnitude? a) < (← magnitude? b)

def lessItems? : List Value → List Value → Option Bool
  | [], bs => some (!bs.isEmpty)
  | _ :: _, [] => some false
  | a :: as, b :: bs => if same a b then lessItems? as bs else less? a b

end

def sorted? (v : Value) : Option (List Value) :=
  v.iterated?.bind (sort? less?)

end Value

end Harvest
