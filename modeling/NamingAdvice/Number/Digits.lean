import NamingAdvice.Text

/-! Whole numbers as digits: written in base ten without leading zeros, and read in any base
up to sixteen.
-/

namespace NamingAdvice

/-- The value of a digit in a base; letters are digits from ten on, in either case. -/
def CodeUnit.digit? (base : Nat) (unit : CodeUnit) : Option Nat :=
  let value :=
    if 0x30 ≤ unit && unit ≤ 0x39 then unit.toNat - 0x30
    else if 0x61 ≤ unit && unit ≤ 0x66 then unit.toNat - 0x61 + 10
    else if 0x41 ≤ unit && unit ≤ 0x46 then unit.toNat - 0x41 + 10
    else base
  if value < base then some value else none

def CodeUnit.isDecimalDigit (unit : CodeUnit) : Bool :=
  0x30 ≤ unit && unit ≤ 0x39

namespace Text

/-- A natural number in base ten. -/
def ofNat (value : Nat) : Text :=
  (Nat.toDigits 10 value).map (fun digit => UInt16.ofNat digit.toNat)

/-- A whole number in base ten, with a minus sign below zero. -/
def ofInt : Int → Text
  | .ofNat value => ofNat value
  | .negSucc value => 0x2D :: ofNat (value + 1)

/-- The value of a run of decimal digits. -/
def decimalValue (digits : Text) : Nat :=
  digits.foldl (fun value unit => 10 * value + (unit.toNat - 0x30)) 0

/-- The value of a whole text of digits in a base; the empty text has none. -/
def valueIn? (base : Nat) (digits : Text) : Option Nat :=
  if digits.isEmpty then none
  else digits.foldlM (fun value unit => (unit.digit? base).map (base * value + ·)) 0

/-- The decimal digits at the start of a text, and what follows them. -/
def spanDigits (source : Text) : Text × Text :=
  (source.takeWhile CodeUnit.isDecimalDigit, source.dropWhile CodeUnit.isDecimalDigit)

theorem spanDigits_length (source : Text)
    : (spanDigits source).1.length + (spanDigits source).2.length = source.length := by
  simp only [spanDigits]
  rw [← List.length_append, List.takeWhile_append_dropWhile]

end Text

end NamingAdvice
