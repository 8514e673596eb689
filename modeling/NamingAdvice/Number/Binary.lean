import NamingAdvice.Number.Decimal

/-! Binary numbers of 53 significant bits. A decimal stands for the binary number nearest to
it, a tie going to the even significand; beyond the largest of them it is infinite, and far
below the smallest it is zero.
-/

namespace NamingAdvice

/-- A power of a whole number; below an exponent of zero it is one. -/
def powerOf (base : Nat) (exponent : Int) : Nat :=
  Nat.pow base exponent.toNat

/-- A binary number without its sign. -/
inductive Magnitude where
  /-- The number `significand * 2 ^ exponent`. -/
  | finite (significand : Nat) (exponent : Int)
  | infinite
deriving DecidableEq, Repr

namespace Magnitude

/-- The exponent of the smallest step between two numbers. -/
def leastExponent : Int := -1074

/-- The exponent of the largest numbers. -/
def greatestExponent : Int := 971

/-- The least significand of full length. -/
def fullSignificand : Nat := powerOf 2 52

/-- The whole number nearest to a quotient; halfway between two it is the even one. -/
def nearestQuotient (numerator denominator : Nat) : Nat :=
  let quotient := numerator / denominator
  let remainder := numerator % denominator
  if 2 * remainder < denominator || (2 * remainder == denominator && quotient % 2 == 0) then
    quotient
  else quotient + 1

/-- The power of two that a positive quotient lies at or above, but not twice. -/
def floorLog2 (numerator denominator : Nat) : Int :=
  let estimate : Int := (numerator.log2 : Int) - denominator.log2
  if denominator * powerOf 2 estimate ≤ numerator * powerOf 2 (-estimate) then estimate
  else estimate - 1

/-- The number nearest to a positive quotient. -/
def ofQuotient (numerator denominator : Nat) : Magnitude :=
  let exponent := max (floorLog2 numerator denominator - 52) leastExponent
  let significand :=
    nearestQuotient (numerator * powerOf 2 (-exponent)) (denominator * powerOf 2 exponent)
  let (significand, exponent) :=
    if significand == 2 * fullSignificand then (fullSignificand, exponent + 1)
    else (significand, exponent)
  if greatestExponent < exponent then .infinite else .finite significand exponent

/-- The largest whole number that is not above a finite number. -/
def floor? : Magnitude → Option Nat
  | .finite significand exponent =>
      some (significand * powerOf 2 exponent / powerOf 2 (-exponent))
  | .infinite => none

end Magnitude

/-- The magnitude that a decimal stands for. The two guards lie outside the range of binary
numbers and keep the powers of ten small.
-/
def Decimal.magnitude (value : Decimal) : Magnitude :=
  let digits := value.mantissa.natAbs
  let width : Int := (Text.ofNat digits).length + value.exponent
  if digits = 0 || width < -330 then .finite 0 Magnitude.leastExponent
  else if 310 < width then .infinite
  else .ofQuotient (digits * powerOf 10 value.exponent) (powerOf 10 (-value.exponent))

end NamingAdvice
