/-! Texts are sequences of 16-bit code units. Every sequence is a text: a surrogate that
belongs to no pair is kept as it stands and only gives way to the replacement character
where the text leaves as a string of scalar values.
-/

namespace NamingAdvice

/-- A 16-bit unit of text. -/
abbrev CodeUnit := UInt16

/-- A text of any code units, in order. -/
abbrev Text := List CodeUnit

/-- The first half of a surrogate pair. -/
def CodeUnit.isHighSurrogate (unit : CodeUnit) : Bool :=
  0xD800 ≤ unit && unit ≤ 0xDBFF

/-- The second half of a surrogate pair. -/
def CodeUnit.isLowSurrogate (unit : CodeUnit) : Bool :=
  0xDC00 ≤ unit && unit ≤ 0xDFFF

/-- The units of one scalar value: itself in the basic plane, else its surrogate pair. -/
def Text.ofScalar (scalar : Nat) : Text :=
  if scalar < 0x10000 then
    [UInt16.ofNat scalar]
  else
    [UInt16.ofNat (0xD800 + (scalar - 0x10000) / 0x400),
      UInt16.ofNat (0xDC00 + (scalar - 0x10000) % 0x400)]

/-- The units of a string. -/
def text (string : String) : Text :=
  string.toList.flatMap (fun char => Text.ofScalar char.toNat)

/-- Separates the members of a list of texts. -/
def Text.join (separator : Text) : List Text → Text
  | [] => []
  | [last] => last
  | first :: second :: rest => first ++ separator ++ Text.join separator (second :: rest)

/-- The parts of a text between the occurrences of a unit: one more part than occurrences. -/
def Text.parts (separator : CodeUnit) : Text → List Text
  | [] => [[]]
  | unit :: rest =>
      if unit == separator then
        [] :: Text.parts separator rest
      else
        match Text.parts separator rest with
        | [] => [[unit]]
        | part :: more => (unit :: part) :: more

end NamingAdvice
