import NamingAdvice.Text

/-! The advice that can be given about a name. A code fixes its label and, together with the
name it is about, its message.
-/

namespace NamingAdvice.Advisory

inductive Code where
  | camelCase
  | initialLower
  | initialUpper
  | allCaps
  | methodNamedLikeType
deriving DecidableEq, Repr

namespace Code

/-- The label that stands for a code in lines and reports. -/
def label : Code → Text
  | .camelCase => text "CAMEL_CASE"
  | .initialLower => text "CAMEL_CASE_INITIAL_LOWER"
  | .initialUpper => text "CAMEL_CASE_INITIAL_UPPER"
  | .allCaps => text "ALL_CAPS"
  | .methodNamedLikeType => text "METHOD_NAMED_LIKE_TYPE"

/-- The words before and after the quoted name. -/
def wording : Code → Text × Text
  | .camelCase => (text "Name '", text "' should follow camelCase")
  | .initialLower => (text "Name '", text "' should start lowercase")
  | .initialUpper => (text "Name '", text "' should start uppercase")
  | .allCaps => (text "Constant '", text "' should be all caps starting with a letter")
  | .methodNamedLikeType =>
      (text "Ordinary method '",
        text "' should not share its type's name, to avoid confusion with a constructor")

/-- The advice in words. The name is quoted as it is. -/
def message (code : Code) (name : Text) : Text :=
  code.wording.1 ++ name ++ code.wording.2

end Code

end NamingAdvice.Advisory
