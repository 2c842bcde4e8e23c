import Harvest.Decimal.Double

namespace Harvest.Decimal

/-- A decimal numeral: digits behind a point that is then moved to a place, `0.d₁d₂… · 10 ^ place`.
-/
structure Numeral where
  digits : List Char
  place : Int
deriving DecidableEq

namespace Numeral

def ofNat (n : Nat) (exponent : Int) : Numeral :=
  let digits := Nat.toDigits 10 n
  ⟨digits, exponent + digits.length⟩

def trimmed (d : Numeral) : Numeral :=
  ⟨(d.digits.reverse.dropWhile (· == '0')).reverse, d.place⟩

def rank? (d : Numeral) : Option (Fin rankCount) :=
  rankOfDecimal? (Nat.ofDigitChars 10 d.digits 0) (d.place - d.digits.length)

end Numeral

def maxDigits : Nat := 17

namespace Double

/-- The place of the point: the least `p` with `value < 10 ^ p`, for a value that is not zero. -/
def pointPlace (d : Double) : Int :=
  (digitCount (d.units * Nat.pow 10 340 / unitsPerOne) : Int) - 340

def neighbours (d : Double) (exponent : Int) : List Nat :=
  let num := d.units * Nat.pow 10 (-exponent).toNat
  let den := unitsPerOne * Nat.pow 10 exponent.toNat
  let below := num / den
  if roundDiv num den = below then [below, below + 1] else [below + 1, below]

def withDigits? (d : Double) (count : Nat) : Option Numeral :=
  let exponent := d.pointPlace - count
  ((d.neighbours exponent).map fun n => (Numeral.ofNat n exponent).trimmed).find? fun numeral =>
    numeral.rank? = some d.rank

def exact (d : Double) : Numeral :=
  Numeral.ofNat (d.units * Nat.pow 5 1074) (-1074)

def shortest (d : Double) : Numeral :=
  if d.isZero then ⟨['0'], 1⟩
  else ((List.range maxDigits).findSome? fun k => d.withDigits? (k + 1)).getD d.exact

/-- Numerals are written positionally from 10⁻⁴ up to, but without, 10¹⁶. -/
def positional (place : Int) : Bool :=
  -4 < place && place ≤ 16

def layoutPositional (digits : List Char) (place : Int) : List Char :=
  if place ≤ 0 then '0' :: '.' :: List.replicate (-place).toNat '0' ++ digits
  else if digits.length ≤ place.toNat then
    digits ++ List.replicate (place.toNat - digits.length) '0' ++ ['.', '0']
  else digits.take place.toNat ++ '.' :: digits.drop place.toNat

def layoutExponent (digits : List Char) (place : Int) : List Char :=
  let exponent := place - 1
  let size := Nat.toDigits 10 exponent.natAbs
  let mantissa := match digits with
    | first :: second :: rest => first :: '.' :: second :: rest
    | _ => digits
  mantissa ++ 'e' :: (if exponent < 0 then '-' else '+') ::
    (List.replicate (2 - size.length) '0' ++ size)

def layout (n : Numeral) : List Char :=
  if positional n.place then layoutPositional n.digits n.place
  else layoutExponent n.digits n.place

def written (d : Double) : List Char :=
  if d.negative then '-' :: layout d.shortest else layout d.shortest

end Double

end Harvest.Decimal
