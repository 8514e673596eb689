import NamingAdvice.Declaration.Kind
import NamingAdvice.Json
import NamingAdvice.Number.Digits

/-! What can be wrong with the structure of a forest given as a JSON value. An issue has a
cause and the place of the offending value, told from the root.
-/

namespace NamingAdvice

/-- A step from a JSON value into one of its parts. -/
inductive Step where
  | key (name : Text)
  | index (position : Nat)
deriving DecidableEq, Repr

/-- A step in words. -/
def Step.label : Step → Text
  | .key name => name
  | .index position => Text.ofNat position

/-- What a value was expected to be. -/
inductive Expectation where
  | array
  | object
  | string
  | boolean
  | oneOf (labels : List Text)
deriving DecidableEq, Repr

namespace Issue

inductive Cause where
  | missing
  | wrongShape (expected : Expectation) (received : Json.Shape)
  | unknownLabel (labels : List Text) (received : Text)
  | repeatedModifier (modifier : Modifier)
deriving DecidableEq, Repr

end Issue

structure Issue where
  cause : Issue.Cause
  place : List Step
deriving DecidableEq, Repr

/-- A list of labels, each in single quotes. -/
def Expectation.listing (labels : List Text) : Text :=
  Text.join (text " | ") (labels.map (fun label => text "'" ++ label ++ text "'"))

def Expectation.label : Expectation → Text
  | .array => text "array"
  | .object => text "object"
  | .string => text "string"
  | .boolean => text "boolean"
  | .oneOf labels => listing labels

def Json.Shape.label : Json.Shape → Text
  | .null => text "null"
  | .boolean => text "boolean"
  | .number => text "number"
  | .string => text "string"
  | .array => text "array"
  | .object => text "object"

namespace Issue

/-- The sort of an issue. -/
def Cause.label : Cause → Text
  | .missing | .wrongShape _ _ => text "invalid_type"
  | .unknownLabel _ _ => text "invalid_enum_value"
  | .repeatedModifier _ => text "custom"

/-- An issue in words. -/
def Cause.message : Cause → Text
  | .missing => text "Required"
  | .wrongShape expected received =>
      text "Expected " ++ expected.label ++ text ", received " ++ received.label
  | .unknownLabel labels received =>
      text "Invalid enum value. Expected " ++ Expectation.listing labels
        ++ text ", received '" ++ received ++ text "'"
  | .repeatedModifier modifier =>
      text "duplicate modifier '" ++ modifier.label ++ text "'"

/-- The place of an issue as a path; the root is a lone slash. -/
def path (issue : Issue) : Text :=
  text "/" ++ Text.join (text "/") (issue.place.map Step.label)

/-- The same issue, seen from one step further out. -/
def under (step : Step) (issue : Issue) : Issue :=
  { issue with place := step :: issue.place }

end Issue

end NamingAdvice
