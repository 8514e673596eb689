import NamingAdvice.Json.Token

/-! What is wrong with a text that is no JSON, and where. A mistake lies at the first unit
that cannot belong to any JSON text with the same beginning; where the text ends too early it
lies at the end.
-/

namespace NamingAdvice.Json

inductive Reason where
  | endOfText
  | unexpectedUnit
  | unexpectedNumber
  | unexpectedString
  | noKeyOrBrace
  | noKey
  | noColon
  | noCommaOrBrace
  | noCommaOrBracket
  | textAfterValue
  | unclosedString
  | controlInString
  | unknownEscape
  | brokenUnicodeEscape
  | noDigitAfterMinus
  | noDigitAfterPoint
  | noDigitInPower
deriving DecidableEq, Repr

structure Mistake where
  reason : Reason
  /-- The whole text. -/
  source : Text
  /-- How many units stand before the mistake. -/
  position : Nat
deriving DecidableEq, Repr

/-! ## Tokens that cannot be read

Each of these takes a text that starts with such a token, and gives the reason with what is
left of the text at the mistake.
-/

namespace Token

/-- What is wrong with an escape, after its backslash. -/
def escapeMistake : Text → Reason × Text
  | [] => (.unknownEscape, [])
  | letter :: rest =>
      if letter == 0x75 then
        (.brokenUnicodeEscape, rest.dropWhile (fun unit => (unit.digit? 16).isSome))
      else (.unknownEscape, letter :: rest)

/-- What is wrong with a string, after its opening quote. -/
def stringMistake (source : Text) : Reason × Text :=
  match source with
  | [] => (.unclosedString, [])
  | unit :: rest =>
      if unit == 0x5C then
        match _h : readEscape? rest with
        | none => escapeMistake rest
        | some (_, rest) => stringMistake rest
      else if unit < 0x20 then (.controlInString, unit :: rest)
      else stringMistake rest
termination_by source.length
decreasing_by
  · have := readEscape?_length _h
    simp only [List.length_cons]
    omega
  · simp

/-- What is wrong with a number. -/
def numberMistake (source : Text) : Reason × Text :=
  let unsigned := (readMinus source).2
  let (whole, rest) := Text.spanDigits unsigned
  if whole.isEmpty then (.noDigitAfterMinus, unsigned)
  else if whole.head? == some 0x30 && whole.length > 1 then (.unexpectedNumber, unsigned.drop 1)
  else
    match readFraction? rest with
    | none => (.noDigitAfterPoint, rest.drop 1)
    | some (_, rest) => (.noDigitInPower, (Decimal.readSign (rest.drop 1)).2)

/-- Takes the units off a text that it has in common with a word. -/
def dropShared : (word source : Text) → Text
  | expected :: word, unit :: source =>
      if expected == unit then dropShared word source else unit :: source
  | _, source => source

/-- What is wrong with a word. Where it leaves the only word with its first letter, the unit
there is taken for the start of something else.
-/
def wordMistake (source : Text) : Reason × Text :=
  let shared := words.find? (fun (word, _) => word.head? == source.head?)
  let rest := dropShared ((shared.map Prod.fst).getD []) source
  match rest with
  | [] => (.endOfText, [])
  | unit :: _ =>
      if unit == 0x22 then (.unexpectedString, rest)
      else if unit == 0x2D || unit.isDecimalDigit then (.unexpectedNumber, rest)
      else (.unexpectedUnit, rest)

/-- What is wrong with the token that starts with the first unit of a text. -/
def mistake (unit : CodeUnit) (rest : Text) : Reason × Text :=
  if unit == 0x22 then stringMistake rest
  else if unit == 0x2D || unit.isDecimalDigit then numberMistake (unit :: rest)
  else wordMistake (unit :: rest)

end Token

/-! ## Messages -/

namespace Mistake

/-- Counts lines and columns on from a given place. A line ends with a line feed, a carriage
return or both.
-/
def advance : (line column : Nat) → Text → Nat × Nat
  | line, column, [] => (line, column)
  | line, column, unit :: rest =>
      if unit == 0x0A || (unit == 0x0D && rest.head? != some 0x0A) then
        advance (line + 1) 1 rest
      else advance line (column + 1) rest

/-- The place of a mistake in words. -/
def place (mistake : Mistake) : Text :=
  let (line, column) := advance 1 1 (mistake.source.take mistake.position)
  text " at position " ++ Text.ofNat mistake.position ++ text " (line " ++ Text.ofNat line
    ++ text " column " ++ Text.ofNat column ++ text ")"

/-- How many units are shown on either side of a mistake. -/
def contextWidth : Nat := 10

/-- The part of the text around a mistake, with dots where more text is. A short text is
shown whole.
-/
def excerpt (mistake : Mistake) : Text :=
  let source := mistake.source
  let quoted (content : Text) : Text := 0x22 :: content ++ [0x22]
  if source.length ≤ 2 * contextWidth then quoted source
  else
    let dots (missing : Bool) : Text := if missing then text "..." else []
    let shown :=
      (source.take (mistake.position + contextWidth)).drop (mistake.position - contextWidth)
    dots (contextWidth ≤ mistake.position) ++ quoted shown
      ++ dots (mistake.position + contextWidth < source.length)

/-- Texts that stand for values without JSON text. They are shown in place of the unit at
which they cannot be read.
-/
def standIns : List Text :=
  [text "[object Object]", text "NaN", text "Infinity", text "undefined"]

/-- What is said of a unit that was not expected. -/
def unitMessage (mistake : Mistake) : Text :=
  if standIns.contains mistake.source then
    0x22 :: mistake.source ++ text "\" is not valid JSON"
  else
    text "Unexpected token '" ++ (mistake.source.drop mistake.position).take 1 ++ text "', "
      ++ mistake.excerpt ++ text " is not valid JSON"

def message (mistake : Mistake) : Text :=
  let within (complaint : String) : Text := text complaint ++ text " in JSON" ++ mistake.place
  match mistake.reason with
  | .endOfText => text "Unexpected end of JSON input"
  | .unexpectedUnit => mistake.unitMessage
  | .unexpectedNumber => within "Unexpected number"
  | .unexpectedString => within "Unexpected string"
  | .noKeyOrBrace => within "Expected property name or '\x7d'"
  | .noKey => within "Expected double-quoted property name"
  | .noColon => within "Expected ':' after property name"
  | .noCommaOrBrace => within "Expected ',' or '\x7d' after property value"
  | .noCommaOrBracket => within "Expected ',' or ']' after array element"
  | .textAfterValue => text "Unexpected non-whitespace character after JSON" ++ mistake.place
  | .unclosedString => within "Unterminated string"
  | .controlInString => within "Bad control character in string literal"
  | .unknownEscape => within "Bad escaped character"
  | .brokenUnicodeEscape => within "Bad Unicode escape"
  | .noDigitAfterMinus => within "No number after minus sign"
  | .noDigitAfterPoint => within "Unterminated fractional number"
  | .noDigitInPower => within "Exponent part is missing a number"

end Mistake

end NamingAdvice.Json
