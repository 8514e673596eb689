import NamingAdvice.Json.Writer

/-! A text in quotes, as it is quoted in a message. Single quotes are taken if the text has
none of them, else double quotes, else backticks if those would mean nothing else. Control
units, the backslash, the quote itself and surrogates without a partner are escaped, and a wide
text is broken after each of its line feeds.
-/

namespace NamingAdvice.Quotation

/-- The quote for a text. A backtick is none for a text in which a dollar and a brace would
open a hole.
-/
def quoteFor (content : Text) : CodeUnit :=
  let opensHole := (content.zip (content.drop 1)).contains (0x24, 0x7B)
  if !content.contains 0x27 then 0x27
  else if !content.contains 0x22 then 0x22
  else if !content.contains 0x60 && !opensHole then 0x60
  else 0x27

/-- The upper-case digit of a number below sixteen. -/
def hexDigit (value : Nat) : CodeUnit :=
  UInt16.ofNat (if value < 10 then 0x30 + value else 0x41 + (value - 10))

/-- A unit between given quotes. -/
def escapeUnit (quote unit : CodeUnit) : Text :=
  if unit == quote || unit == 0x5C then [0x5C, unit]
  else if unit == 0x08 then [0x5C, 0x62]
  else if unit == 0x09 then [0x5C, 0x74]
  else if unit == 0x0A then [0x5C, 0x6E]
  else if unit == 0x0C then [0x5C, 0x66]
  else if unit == 0x0D then [0x5C, 0x72]
  else if unit < 0x20 || (0x7F ≤ unit && unit ≤ 0x9F) then
    [0x5C, 0x78, hexDigit (unit.toNat / 0x10), hexDigit (unit.toNat % 0x10)]
  else if unit.isHighSurrogate || unit.isLowSurrogate then Json.escapeHex unit
  else [unit]

/-- A code point between given quotes. Surrogate pairs are written as they are. -/
def escapePoint (quote : CodeUnit) : CodePoint → Text
  | .single unit => escapeUnit quote unit
  | .pair high low => [high, low]

/-- A text between quotes, without a break. -/
def quoteLine (content : Text) : Text :=
  let quote := quoteFor content
  quote :: content.codePoints.flatMap (escapePoint quote) ++ [quote]

/-- The lines of a text, each with the line feed that ends it. -/
def lines : Text → List Text
  | [] => []
  | unit :: rest =>
      if unit == 0x0A then [unit] :: lines rest
      else
        match lines rest with
        | [] => [[unit]]
        | line :: more => (unit :: line) :: more

/-- The most units of a text that is not broken. -/
def greatestWidth : Nat := 124

/-- A text in quotes. -/
def quote (content : Text) : Text :=
  if greatestWidth < content.length then
    Text.join (text " +\n  ") ((lines content).map quoteLine)
  else quoteLine content

/-- A text cut off after a number of units, with dots for what is left out. -/
def clip (limit : Nat) (content : Text) : Text :=
  if limit < content.length then content.take limit ++ text "..." else content

/-- A text in quotes, of which a message shows no more than 128 units. -/
def excerpt (content : Text) : Text :=
  clip 128 (quote content)

end NamingAdvice.Quotation
