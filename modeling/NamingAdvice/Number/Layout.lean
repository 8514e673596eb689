import NamingAdvice.Number.Decimal

/-! The text of a decimal. Numbers from a millionth up to twenty-one digits are written
positionally, all others with one digit before the point and a signed power of ten.
-/

namespace NamingAdvice.Decimal

/-- The layout of digits that start at the place of `10 ^ (point - 1)`. -/
def layout (digits : Text) (point : Int) : Text :=
  let count : Int := digits.length
  if count ≤ point && point ≤ 21 then
    digits ++ List.replicate (point - count).toNat 0x30
  else if 0 < point && point ≤ 21 then
    digits.take point.toNat ++ 0x2E :: digits.drop point.toNat
  else if -6 < point && point ≤ 0 then
    text "0." ++ List.replicate (-point).toNat 0x30 ++ digits
  else
    let power := point - 1
    let sign := if power < 0 then text "e-" else text "e+"
    let fraction := if count = 1 then [] else 0x2E :: digits.drop 1
    digits.take 1 ++ fraction ++ sign ++ Text.ofNat power.natAbs

/-- The minus sign of a number below zero. -/
def sign (value : Decimal) : Text :=
  if value.mantissa < 0 then [0x2D] else []

/-- A decimal in digits. -/
def toText (value : Decimal) : Text :=
  let digits := Text.ofNat value.mantissa.natAbs
  value.sign ++ layout digits (digits.length + value.exponent)

end NamingAdvice.Decimal
