import NamingAdvice.Number.Binary
import NamingAdvice.Number.Layout

/-! The shortest decimal for a binary number: the fewest digits that read back as it, and of
those the nearest to it.
-/

namespace NamingAdvice

namespace Magnitude

/-- Compares `digits * 10 ^ power` with `count * 2 ^ exponent`. -/
def compareScaled (digits : Nat) (power : Int) (count : Nat) (exponent : Int) : Ordering :=
  compare (digits * powerOf 10 power * powerOf 2 (-exponent))
    (count * powerOf 2 exponent * powerOf 10 (-power))

/-- Whether a decimal rounds to a number: it lies between the halfway points to the two
neighbours, which belong to the number if its significand is even.
-/
def readsBack (significand : Nat) (exponent : Int) (digits : Nat) (power : Int) : Bool :=
  let narrow := significand == fullSignificand && leastExponent < exponent
  let low := if narrow then 4 * significand - 1 else 4 * significand - 2
  let high := 4 * significand + 2
  let even := significand % 2 == 0
  let above := compareScaled digits power low (exponent - 2)
  let below := compareScaled digits power high (exponent - 2)
  (above == .gt || (even && above == .eq)) && (below == .lt || (even && below == .eq))

/-- The least power of ten above a positive number. -/
def decimalScale (significand : Nat) (exponent : Int) : Int :=
  let scaled := significand * powerOf 2 exponent * powerOf 10 350 / powerOf 2 (-exponent)
  (Text.ofNat scaled).length - 350

/-- The decimal with a given number of digits that is nearest to a positive number, if any
such decimal reads back.
-/
def withDigits? (significand : Nat) (exponent : Int) (count : Nat) : Option Decimal :=
  let power := decimalScale significand exponent - count
  let below :=
    significand * powerOf 2 exponent * powerOf 10 (-power)
      / (powerOf 2 (-exponent) * powerOf 10 power)
  let lower := readsBack significand exponent below power
  let upper := readsBack significand exponent (below + 1) power
  let middle := compareScaled (2 * below + 1) power (2 * significand) exponent
  if lower && (!upper || middle == .gt || (middle == .eq && below % 2 == 0)) then
    some ⟨below, power⟩
  else if upper then some ⟨below + 1, power⟩
  else none

/-- The shortest decimal of a positive number. Seventeen digits always suffice. -/
def shortest (significand : Nat) (exponent : Int) : Decimal :=
  ((List.range' 1 17).findSome? (withDigits? significand exponent)).getD
    ⟨significand * powerOf 2 exponent * powerOf 5 (-exponent), min exponent 0⟩

end Magnitude

namespace Decimal

/-- The shortest decimal for the binary number nearest to a given one, unless that is
infinite.
-/
def shortest? (value : Decimal) : Option Decimal :=
  match value.magnitude with
  | .infinite => none
  | .finite 0 _ => some (.ofInt 0)
  | .finite significand exponent =>
      let nearest := Magnitude.shortest significand exponent
      some (.ofDigits (value.mantissa < 0) (Text.ofNat nearest.mantissa.natAbs) nearest.exponent)

/-- A number in plain text, as the shortest decimal of its binary value. -/
def plainText (value : Decimal) : Text :=
  match value.shortest? with
  | some shortest => shortest.toText
  | none => value.sign ++ text "Infinity"

end Decimal

end NamingAdvice
