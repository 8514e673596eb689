import NamingAdvice.Json
import NamingAdvice.Number.Shortest

/-! Any value in plain text. The items of an array are joined by commas, at every depth, with
nothing for a null; an object shows nothing of what it holds. An object with a member named
`toString` has no plain text: what is asked for the text is that member, and no JSON value
can answer.
-/

namespace NamingAdvice.Json

/-- Why a value has no plain text. -/
inductive PlainTextError where
  | unanswered
deriving DecidableEq, Repr

def PlainTextError.message : PlainTextError → Text
  | .unanswered => text "Cannot convert object to primitive value"

mutual

/-- A value in plain text. -/
def plainText : Json → Except PlainTextError Text
  | .null => .ok (text "null")
  | .bool value => .ok (if value then text "true" else text "false")
  | .number value => .ok value.plainText
  | .string value => .ok value
  | .array items => (plainItems items).map (Text.join [0x2C])
  | .object members =>
      if (members.lookup (text "toString")).isSome then .error .unanswered
      else .ok (text "[object Object]")

/-- The items of an array in plain text. -/
def plainItems : List Json → Except PlainTextError (List Text)
  | [] => .ok []
  | .null :: items => (plainItems items).map ([] :: ·)
  | item :: items => do
      let first ← plainText item
      let others ← plainItems items
      return first :: others

end

/-- A value in plain text that may not be there at all. -/
def plainText? : Option Json → Except PlainTextError Text
  | some value => plainText value
  | none => .ok (text "undefined")

end NamingAdvice.Json
