import NamingAdvice.Advisory.Code
import NamingAdvice.Text.CharacterClass

/-! All caps. A name starts with an upper-case letter and goes on with upper-case letters,
decimal digits and single underscores, of which one may be the last.
-/

namespace NamingAdvice.Name

/-- Reads the rest of a name. `underscored` tells that the code point before was an underscore. -/
def continuesInCaps (underscored : Bool) : List CodePoint → Bool
  | [] => true
  | point :: rest =>
      if point == CodePoint.underscore then !underscored && continuesInCaps true rest
      else (point.isUpper || point.isDigit) && continuesInCaps false rest

/-- The advice that a name needs to be in all caps, if any. -/
def allCaps (name : Text) : Option Advisory.Code :=
  match name.codePoints with
  | [] => some .allCaps
  | first :: rest =>
      if first.isUpper && continuesInCaps false rest then none else some .allCaps

end NamingAdvice.Name
