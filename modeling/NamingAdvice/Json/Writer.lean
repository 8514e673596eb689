import NamingAdvice.Json
import NamingAdvice.Number.Layout
import NamingAdvice.Text.CodePoint

/-! Writing JSON text. With an indent of zero nothing stands between tokens; with any other
indent every item and member has a line of its own. Strings escape the quote, the backslash,
control units and surrogates without a partner, and nothing else.
-/

namespace NamingAdvice.Json

/-- The lower-case digit of a number below sixteen. -/
def hexDigit (value : Nat) : CodeUnit :=
  UInt16.ofNat (if value < 10 then 0x30 + value else 0x61 + (value - 10))

/-- A unit written as four hexadecimal digits. -/
def escapeHex (unit : CodeUnit) : Text :=
  let value := unit.toNat
  [0x5C, 0x75, hexDigit (value / 0x1000), hexDigit (value / 0x100 % 0x10),
    hexDigit (value / 0x10 % 0x10), hexDigit (value % 0x10)]

/-- A single unit inside a string. -/
def escapeUnit (unit : CodeUnit) : Text :=
  if unit == 0x22 || unit == 0x5C then [0x5C, unit]
  else if unit == 0x08 then [0x5C, 0x62]
  else if unit == 0x0C then [0x5C, 0x66]
  else if unit == 0x0A then [0x5C, 0x6E]
  else if unit == 0x0D then [0x5C, 0x72]
  else if unit == 0x09 then [0x5C, 0x74]
  else if unit < 0x20 || unit.isHighSurrogate || unit.isLowSurrogate then escapeHex unit
  else [unit]

/-- A code point inside a string. Surrogate pairs are written as they are. -/
def escapePoint : CodePoint → Text
  | .single unit => escapeUnit unit
  | .pair high low => [high, low]

/-- A text between quotes. -/
def quote (content : Text) : Text :=
  0x22 :: content.codePoints.flatMap escapePoint ++ [0x22]

/-- The break before an item at a depth. -/
def lineBreak (indent depth : Nat) : Text :=
  if indent = 0 then [] else 0x0A :: List.replicate (indent * depth) 0x20

/-- What stands between a key and its value. -/
def keyMark (indent : Nat) : Text :=
  if indent = 0 then [0x3A] else [0x3A, 0x20]

mutual

/-- Writes a value whose items and members stand one deeper than `depth`. -/
def writeAt (indent depth : Nat) : Json → Text
  | .null => text "null"
  | .bool value => if value then text "true" else text "false"
  | .number value => value.toText
  | .string value => quote value
  | .array [] => text "[]"
  | .array (item :: items) =>
      0x5B :: (lineBreak indent (depth + 1) ++ writeAt indent (depth + 1) item
        ++ writeItems indent (depth + 1) items ++ lineBreak indent depth ++ [0x5D])
  | .object [] => text "\x7b\x7d"
  | .object ((key, value) :: members) =>
      0x7B :: (lineBreak indent (depth + 1) ++ quote key ++ keyMark indent
        ++ writeAt indent (depth + 1) value
        ++ writeMembers indent (depth + 1) members ++ lineBreak indent depth ++ [0x7D])

/-- Writes the items after the first, each behind a comma. -/
def writeItems (indent depth : Nat) : List Json → Text
  | [] => []
  | item :: items =>
      0x2C :: (lineBreak indent depth ++ writeAt indent depth item
        ++ writeItems indent depth items)

/-- Writes the members after the first, each behind a comma. -/
def writeMembers (indent depth : Nat) : List (Text × Json) → Text
  | [] => []
  | (key, value) :: members =>
      0x2C :: (lineBreak indent depth ++ quote key ++ keyMark indent
        ++ writeAt indent depth value ++ writeMembers indent depth members)

end

/-- The text of a value. -/
def write (indent : Nat) (value : Json) : Text :=
  writeAt indent 0 value

end NamingAdvice.Json
