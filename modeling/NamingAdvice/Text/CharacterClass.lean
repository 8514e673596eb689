import NamingAdvice.Text.CharacterTable
import NamingAdvice.Text.CodePoint

/-! What a code point counts as in a name: an upper-case letter, a lower-case letter, a
decimal digit, or none of these. The three tests are independent table lookups.
-/

namespace NamingAdvice

namespace CodePoint

def isUpper (point : CodePoint) : Bool :=
  CharacterTable.uppercase.any (·.contains point.value)

def isLower (point : CodePoint) : Bool :=
  CharacterTable.lowercase.any (·.contains point.value)

def isDigit (point : CodePoint) : Bool :=
  CharacterTable.decimalDigit.any (·.contains point.value)

end CodePoint

namespace Text

/-- A test of code points, put to a text as a whole: it has to be one code point. -/
def isOne (test : CodePoint → Bool) (whole : Text) : Bool :=
  match whole.codePoints with
  | [point] => test point
  | _ => false

def isUpper (whole : Text) : Bool := isOne CodePoint.isUpper whole

def isLower (whole : Text) : Bool := isOne CodePoint.isLower whole

def isDigit (whole : Text) : Bool := isOne CodePoint.isDigit whole

end Text

/-- The classes that matter in a name. -/
inductive CharacterClass where
  | upper
  | lower
  | digit
deriving DecidableEq, Repr

namespace CharacterClass

/-- The class of the code point with a given number, a surrogate standing alone included. -/
def ofValue? (value : Nat) : Option CharacterClass :=
  let whole := Text.ofScalar value
  if whole.isUpper then some .upper
  else if whole.isLower then some .lower
  else if whole.isDigit then some .digit
  else none

/-- Extends a leading run that starts right after `value`, or puts `value` in front. -/
def prepend (value : Nat) (cls : CharacterClass)
    : List (Nat × Nat × CharacterClass) → List (Nat × Nat × CharacterClass)
  | (first, last, other) :: runs =>
      if first == value + 1 && other == cls then (value, last, cls) :: runs
      else (value, value, cls) :: (first, last, other) :: runs
  | [] => [(value, value, cls)]

/-- The maximal runs of one class among the `count` code points from `first`, ascending. -/
def runs (first count : Nat) : List (Nat × Nat × CharacterClass) :=
  (List.range' first count).foldr
    (fun value later =>
      match ofValue? value with
      | some cls => prepend value cls later
      | none => later)
    []

end CharacterClass

end NamingAdvice
