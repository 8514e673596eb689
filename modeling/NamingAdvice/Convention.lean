import NamingAdvice.Declaration
import NamingAdvice.Name.AllCaps
import NamingAdvice.Name.CamelCase

/-! The convention that the name of a declaration should follow. Variables that count as
constants are written in all caps; constructors, initializers and type parameters are under
no convention.
-/

namespace NamingAdvice

/-- A way to write names. -/
inductive Convention where
  | upperCamelCase
  | lowerCamelCase
  | allCapsUnderscore
deriving DecidableEq, Repr

/-- What the choice of a convention depends on, with the enclosing kind resolved. -/
structure Standing where
  kind : Kind
  modifiers : List Modifier
  enclosingKind : Option Kind
  constantValueKnown : Bool
deriving DecidableEq, Repr

/-- The standing of a declaration below a parent. -/
def Header.standing (header : Header) (parent : Option Header) : Standing where
  kind := header.kind
  modifiers := header.modifiers
  enclosingKind := header.resolvedKind parent
  constantValueKnown := header.constantValueKnown

namespace Standing

/-- A constant is whatever stands in an interface, a public static final field, or anything
whose value is known.
-/
def isConstant (standing : Standing) : Bool :=
  standing.enclosingKind == some .interfaceType
  || (standing.kind == .field
      && [Modifier.isPublic, .isStatic, .isFinal].all standing.modifiers.contains)
  || standing.constantValueKnown

/-- The convention that applies, if any. Enum constants are constants wherever they stand. -/
def convention? (standing : Standing) : Option Convention :=
  match standing.kind.category with
  | .type => some .upperCamelCase
  | .executable => if standing.kind == .method then some .lowerCamelCase else none
  | .variable =>
      if standing.kind == .enumConstant || standing.isConstant then some .allCapsUnderscore
      else some .lowerCamelCase
  | .other => none

end Standing

/-- The advice that a name needs to follow a convention, if any. -/
def Convention.advice? : Convention → Text → Option Advisory.Code
  | .upperCamelCase => Name.camelCase .upper
  | .lowerCamelCase => Name.camelCase .lower
  | .allCapsUnderscore => Name.allCaps

end NamingAdvice
