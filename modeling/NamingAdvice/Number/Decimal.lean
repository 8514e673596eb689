import NamingAdvice.Number.Digits

/-! Decimal numbers as they are written: digits, perhaps a fraction, perhaps a power of ten.
The value is kept exactly, and in one way only: zeros at the end of the digits count in the
power of ten.
-/

namespace NamingAdvice

/-- The number `mantissa * 10 ^ exponent`. -/
structure Decimal where
  mantissa : Int
  exponent : Int
deriving DecidableEq, Repr

namespace Decimal

/-- Digits without the zeros at their end. -/
def trimZeros (digits : Text) : Text :=
  (digits.reverse.dropWhile (· == 0x30)).reverse

/-- The number with given digits, times a power of ten. -/
def ofDigits (negative : Bool) (digits : Text) (power : Int) : Decimal :=
  let kept := trimZeros digits
  let magnitude : Int := Text.decimalValue kept
  if kept.isEmpty then ⟨0, 0⟩
  else
    ⟨if negative then -magnitude else magnitude,
      power + (digits.length - kept.length : Nat)⟩

def ofInt (value : Int) : Decimal :=
  ofDigits (value < 0) (Text.ofNat value.natAbs) 0

/-- The number with given digits before and after its point, times a power of ten. -/
def ofParts (negative : Bool) (whole fraction : Text) (power : Int) : Decimal :=
  ofDigits negative (whole ++ fraction) (power - fraction.length)

/-- A sign that may stand in front, and what follows it. -/
def readSign : Text → Bool × Text
  | unit :: rest =>
      if unit == 0x2D then (true, rest)
      else if unit == 0x2B then (false, rest)
      else (false, unit :: rest)
  | [] => (false, [])

/-- A power of ten that may follow the digits. It is refused if its mark has no digits. -/
def readPower? : Text → Option (Int × Text)
  | mark :: rest =>
      if mark == 0x65 || mark == 0x45 then
        let (negative, unsigned) := readSign rest
        let (digits, rest) := Text.spanDigits unsigned
        if digits.isEmpty then none
        else
          let magnitude : Int := Text.decimalValue digits
          some (if negative then -magnitude else magnitude, rest)
      else some (0, mark :: rest)
  | [] => some (0, [])

theorem readSign_length (source : Text) : (readSign source).2.length ≤ source.length := by
  cases source with
  | nil => simp [readSign]
  | cons unit rest =>
      simp only [readSign]
      split
      · simp
      · split <;> simp

theorem readPower?_length {source rest : Text} {power : Int}
    (h : readPower? source = some (power, rest))
    : rest.length ≤ source.length := by
  cases source with
  | nil => simp_all [readPower?]
  | cons mark tail =>
      simp only [readPower?] at h
      split at h
      · have hs := readSign_length tail
        have hd := Text.spanDigits_length (readSign tail).2
        split at h
        · contradiction
        · simp only [Option.some.injEq, Prod.mk.injEq] at h
          rw [← h.2]
          simp only [List.length_cons]
          omega
      · simp only [Option.some.injEq, Prod.mk.injEq] at h
        exact Nat.le_of_eq (congrArg List.length h.2.symm)

end Decimal

end NamingAdvice
