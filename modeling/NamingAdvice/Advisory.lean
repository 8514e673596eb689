import NamingAdvice.Convention

/-! An advisory: one advice about one declaration, at the path where the declaration stands.
What a declaration is advised about depends on its own header and that of its parent only.
-/

namespace NamingAdvice

/-- How grave an advisory is. -/
inductive Severity where
  | info
  | warning
deriving DecidableEq, Repr

def Severity.label : Severity → Text
  | .info => text "info"
  | .warning => text "warning"

structure Advisory where
  declaration : Declaration
  path : Text
  code : Advisory.Code

namespace Advisory

/-- No advisory is less than a warning. -/
def severity (_ : Advisory) : Severity := .warning

def message (advisory : Advisory) : Text :=
  advisory.code.message advisory.declaration.name

end Advisory

namespace Header

/-- A method with the name of its enclosing type looks like a constructor. -/
def namedLikeType (header : Header) (parent : Option Header) : Bool :=
  header.kind == .method && some header.name == header.resolvedName parent

/-- Everything that a declaration is advised about, in order. -/
def advice (header : Header) (parent : Option Header) : List Advisory.Code :=
  (if header.namedLikeType parent then [.methodNamedLikeType] else [])
    ++ ((header.standing parent).convention?.bind (·.advice? header.name)).toList

end Header

end NamingAdvice
