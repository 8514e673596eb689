import NamingAdvice.Json.Mistake

/-! Reading JSON text. One pass over the text takes in token after token and keeps the arrays
and objects that are still open, innermost first, so the depth of nesting is bounded by
nothing but the text. A repeated key takes the last of its values.
-/

namespace NamingAdvice.Json

/-- An array or object that is still open, with what it holds so far. -/
inductive Frame where
  /-- Holds the items before the current one, the latest first. -/
  | array (before : List Json)
  /-- Holds the finished members and the key of the current one. -/
  | object (before : List (Text × Json)) (key : Text)

/-- How far the reading of one value has come. -/
inductive Progress where
  | beforeValue (outer : List Frame)
  | afterOpenArray (outer : List Frame)
  | afterOpenObject (outer : List Frame)
  | beforeKey (before : List (Text × Json)) (outer : List Frame)
  | beforeColon (before : List (Text × Json)) (key : Text) (outer : List Frame)
  | afterValue (value : Json) (outer : List Frame)

namespace Progress

/-- Starts a value with a token. -/
def start? (outer : List Frame) : Token → Option Progress
  | .null => some (.afterValue .null outer)
  | .bool value => some (.afterValue (.bool value) outer)
  | .number value => some (.afterValue (.number value) outer)
  | .string value => some (.afterValue (.string value) outer)
  | .openArray => some (.afterOpenArray outer)
  | .openObject => some (.afterOpenObject outer)
  | .closeArray | .closeObject | .comma | .colon => none

/-- What a token makes of a value that is complete. -/
def continue? (value : Json) : List Frame → Token → Option Progress
  | .array before :: outer, .comma => some (.beforeValue (.array (value :: before) :: outer))
  | .array before :: outer, .closeArray =>
      some (.afterValue (.array (value :: before).reverse) outer)
  | .object before key :: outer, .comma => some (.beforeKey (setMember key value before) outer)
  | .object before key :: outer, .closeObject =>
      some (.afterValue (.object (setMember key value before)) outer)
  | _, _ => none

/-- Takes in one token. -/
def step : Progress → Token → Option Progress
  | .beforeValue outer, token => start? outer token
  | .afterOpenArray outer, .closeArray => some (.afterValue (.array []) outer)
  | .afterOpenArray outer, token => start? (.array [] :: outer) token
  | .afterOpenObject outer, .closeObject => some (.afterValue (.object []) outer)
  | .afterOpenObject outer, .string key => some (.beforeColon [] key outer)
  | .afterOpenObject _, _ => none
  | .beforeKey before outer, .string key => some (.beforeColon before key outer)
  | .beforeKey _ _, _ => none
  | .beforeColon before key outer, .colon => some (.beforeValue (.object before key :: outer))
  | .beforeColon _ _ _, _ => none
  | .afterValue value outer, token => continue? value outer token

/-- Whether a token that starts with a unit could be taken in, if it could be read. -/
def admits (unit : CodeUnit) : Progress → Bool
  | .beforeValue _ | .afterOpenArray _ => true
  | .afterOpenObject _ | .beforeKey _ _ => unit == 0x22
  | .beforeColon _ _ _ | .afterValue _ _ => false

/-- What is wrong with something that cannot be taken in. -/
def refusal : Progress → Reason
  | .beforeValue _ | .afterOpenArray _ => .unexpectedUnit
  | .afterOpenObject _ => .noKeyOrBrace
  | .beforeKey _ _ => .noKey
  | .beforeColon _ _ _ => .noColon
  | .afterValue _ (.object _ _ :: _) => .noCommaOrBrace
  | .afterValue _ (.array _ :: _) => .noCommaOrBracket
  | .afterValue _ [] => .textAfterValue

/-- The value that was read, if nothing is left open at the end of the text. -/
def finish : Progress → Except Reason Json
  | .afterValue value [] => .ok value
  | .beforeValue _ | .afterOpenArray _ => .error .endOfText
  | progress => .error progress.refusal

/-- Takes in what is left of a text. -/
def run (progress : Progress) (source : Text) : Except (Reason × Text) Json :=
  match source with
  | [] => progress.finish.mapError (·, [])
  | unit :: rest =>
      if Token.isBlank unit then run progress rest
      else
        match _h : Token.next? unit rest with
        | some (token, after) =>
            match progress.step token with
            | some progress => run progress after
            | none => .error (progress.refusal, unit :: rest)
        | none =>
            .error (if progress.admits unit then Token.mistake unit rest
              else (progress.refusal, unit :: rest))
termination_by source.length
decreasing_by
  · simp
  · have := Token.next?_length _h
    simp only [List.length_cons]
    omega

end Progress

/-- The value that a text spells, or what is wrong with the text. -/
def read (source : Text) : Except Mistake Json :=
  ((Progress.beforeValue []).run source).mapError
    (fun (reason, rest) => ⟨reason, source, source.length - rest.length⟩)

end NamingAdvice.Json
