import NamingAdvice.Number.Shortest

/-! Whole numbers as binary numbers keep them: exactly up to 53 bits, and rounded beyond. -/

namespace NamingAdvice.Whole

/-- The value of the binary number nearest to a whole number. -/
def nearest (value : Int) : Int :=
  match (Decimal.ofInt value).magnitude.floor? with
  | some magnitude => if value < 0 then -magnitude else magnitude
  | none => value

/-- The whole number that is written for the binary number nearest to a given one. It has as
few digits before its final zeros as tell that binary number from all others.
-/
def shortest (value : Int) : Int :=
  match (Decimal.ofInt value).shortest? with
  | some decimal => decimal.mantissa * powerOf 10 decimal.exponent
  | none => value

end NamingAdvice.Whole
