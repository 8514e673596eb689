import NamingAdvice.Advisory.Code
import NamingAdvice.Text.CharacterClass

/-! Camel case. A name starts with a letter of the case that is asked for, and nowhere do two
upper-case letters stand next to each other. A start in the other case has an advice of its
own, which hides whatever follows.
-/

namespace NamingAdvice.Name

/-- The case that a name has to start with. -/
inductive InitialCase where
  | upper
  | lower
deriving DecidableEq, Repr

/-- Whether two neighbours in a list both pass a test. -/
def hasAdjacent (test : CodePoint → Bool) : List CodePoint → Bool
  | first :: second :: rest =>
      (test first && test second) || hasAdjacent test (second :: rest)
  | _ => false

/-- The advice that a name needs to be in camel case, if any. -/
def camelCase (initial : InitialCase) (name : Text) : Option Advisory.Code :=
  match name.codePoints, initial with
  | [], _ => some .camelCase
  | first :: rest, .upper =>
      if first.isUpper then
        if hasAdjacent CodePoint.isUpper (first :: rest) then some .camelCase else none
      else if first.isLower then some .initialUpper
      else some .camelCase
  | first :: rest, .lower =>
      if first.isUpper then some .initialLower
      else if first.isLower then
        if hasAdjacent CodePoint.isUpper (first :: rest) then some .camelCase else none
      else some .camelCase

end NamingAdvice.Name
