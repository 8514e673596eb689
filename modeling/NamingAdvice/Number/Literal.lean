import NamingAdvice.Number.Binary

/-! Numbers typed by a user: a decimal with an optional sign, point and power of ten, a whole
number in base sixteen, eight or two behind its mark, or the word for infinity. Blanks around
the number do not count, and nothing at all is zero.
-/

namespace NamingAdvice

/-- Blank units: the space separators, the tabs and feeds, the line and paragraph separators
and the byte order mark.
-/
def CodeUnit.isBlank (unit : CodeUnit) : Bool :=
  (0x09 ≤ unit && unit ≤ 0x0D) || (0x2000 ≤ unit && unit ≤ 0x200A)
  || [0x20, 0xA0, 0x1680, 0x2028, 0x2029, 0x202F, 0x205F, 0x3000, 0xFEFF].contains unit

/-- A text without the blanks at its ends. -/
def Text.trim (source : Text) : Text :=
  ((source.dropWhile CodeUnit.isBlank).reverse.dropWhile CodeUnit.isBlank).reverse

/-- A number as it was typed. -/
inductive Literal where
  | decimal (value : Decimal)
  | infinity
deriving DecidableEq, Repr

namespace Literal

/-- The base that a mark after a leading zero announces. -/
def baseOfMark? (mark : CodeUnit) : Option Nat :=
  if mark == 0x78 || mark == 0x58 then some 16
  else if mark == 0x6F || mark == 0x4F then some 8
  else if mark == 0x62 || mark == 0x42 then some 2
  else none

/-- Digits, with a point before, between or after them, and perhaps a power of ten. -/
def readUnsigned? (negative : Bool) (source : Text) : Option Literal := do
  let (whole, rest) := Text.spanDigits source
  let (fraction, rest) :=
    match rest with
    | unit :: rest => if unit == 0x2E then Text.spanDigits rest else ([], unit :: rest)
    | [] => ([], [])
  if whole.isEmpty && fraction.isEmpty then none
  let (power, rest) ← Decimal.readPower? rest
  if rest.isEmpty then some (.decimal (Decimal.ofParts negative whole fraction power)) else none

/-- A decimal or the word for infinity, with an optional sign. -/
def readSigned? (source : Text) : Option Literal :=
  let (negative, unsigned) := Decimal.readSign source
  if unsigned == text "Infinity" then some .infinity else readUnsigned? negative unsigned

/-- The number that a text stands for. -/
def read? (source : Text) : Option Literal :=
  match source.trim with
  | [] => some (.decimal (.ofInt 0))
  | first :: second :: digits =>
      match if first == 0x30 then baseOfMark? second else none with
      | some base => (Text.valueIn? base digits).map (fun value => .decimal (.ofInt value))
      | none => readSigned? (first :: second :: digits)
  | short => readSigned? short

end Literal

end NamingAdvice
