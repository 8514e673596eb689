import NamingAdvice.Text

/-! The code points of a text. A high surrogate directly followed by a low one is one code
point; any other unit stands for itself, surrogates without a partner included.
-/

namespace NamingAdvice

/-- One element of a text: a unit of its own or a surrogate pair. -/
inductive CodePoint where
  | single (unit : CodeUnit)
  | pair (high low : CodeUnit)
deriving DecidableEq, Repr

namespace CodePoint

/-- The units that a code point is written with. -/
def units : CodePoint → Text
  | .single unit => [unit]
  | .pair high low => [high, low]

/-- The number of a code point; a surrogate without a partner keeps its own value. -/
def value : CodePoint → Nat
  | .single unit => unit.toNat
  | .pair high low => 0x10000 + (high.toNat - 0xD800) * 0x400 + (low.toNat - 0xDC00)

/-- The underscore. -/
def underscore : CodePoint := .single 0x5F

end CodePoint

/-- Cuts a text into code points, pairing surrogates from left to right. -/
def Text.codePoints : Text → List CodePoint
  | [] => []
  | [unit] => [.single unit]
  | first :: second :: rest =>
      if first.isHighSurrogate && second.isLowSurrogate then
        .pair first second :: Text.codePoints rest
      else
        .single first :: Text.codePoints (second :: rest)

end NamingAdvice
