namespace Harvest.Decimal

abbrev rankCount : Nat := 2047 * Nat.pow 2 52

/-- A finite floating-point number: a sign and the rank of the absolute value. -/
structure Double where
  negative : Bool
  rank : Fin rankCount
deriving DecidableEq

/-- Two to the power of the least exponent, inverted: one is this many units. -/
def unitsPerOne : Nat := Nat.pow 2 1074

def unitsOfRank (rank : Nat) : Nat :=
  if rank < Nat.pow 2 52 then rank
  else (rank % Nat.pow 2 52 + Nat.pow 2 52) * Nat.pow 2 (rank / Nat.pow 2 52 - 1)

def roundDiv (num den : Nat) : Nat :=
  let q := num / den
  let twice := 2 * (num % den)
  if twice < den || (twice == den && q % 2 == 0) then q else q + 1

/-- The rank of the value nearest to `num / den` units; it may be too large for a finite one. -/
def rankOfUnits (num den : Nat) : Nat :=
  let shift := Nat.log2 (num / den) - 52
  shift * Nat.pow 2 52 + roundDiv num (den * Nat.pow 2 shift)

def digitCount (n : Nat) : Nat :=
  (Nat.toDigits 10 n).length

def rankOfDecimal? (digits : Nat) (exponent : Int) : Option (Fin rankCount) :=
  if digits = 0 then some ⟨0, by decide⟩
  else
    let place := exponent + digitCount digits
    if place < -400 then some ⟨0, by decide⟩
    else if 400 < place then none
    else
      let rank := rankOfUnits (digits * Nat.pow 10 exponent.toNat * unitsPerOne)
        (Nat.pow 10 (-exponent).toNat)
      if h : rank < rankCount then some ⟨rank, h⟩ else none

namespace Double

def units (d : Double) : Nat :=
  unitsOfRank d.rank

def isZero (d : Double) : Bool :=
  d.rank.val == 0

def isWhole (d : Double) : Bool :=
  d.units % unitsPerOne == 0

def truncate (d : Double) : Int :=
  let n : Int := (d.units / unitsPerOne : Nat)
  if d.negative then -n else n

def ofDecimal? (negative : Bool) (digits : Nat) (exponent : Int) : Option Double :=
  (rankOfDecimal? digits exponent).map (⟨negative, ·⟩)

end Double

end Harvest.Decimal
