import NamingAdvice.Declaration.Kind

/-! Declarations form ordered forests. The header of a declaration holds what is said about
it alone; what encloses it is taken from its own header if stated there and otherwise from
its immediate parent.
-/

namespace NamingAdvice

/-- What is said about one declaration, its children apart. -/
structure Header where
  kind : Kind
  name : Text
  modifiers : List Modifier
  /-- The kind of the enclosing declaration, where it is stated. -/
  enclosingKind : Option Kind
  /-- The name of the enclosing type, where it is stated. -/
  enclosingName : Option Text
  /-- Whether the initial value is known to be constant. -/
  constantValueKnown : Bool
deriving DecidableEq, Repr

/-- A declaration with the declarations that stand inside it, in order. -/
structure Declaration extends Header where
  children : List Declaration

namespace Header

/-- The enclosing kind: the stated one, else the kind of the parent. -/
def resolvedKind (header : Header) (parent : Option Header) : Option Kind :=
  header.enclosingKind.or (parent.map (·.kind))

/-- The enclosing name: the stated one, else the name of the parent if that is a type. -/
def resolvedName (header : Header) (parent : Option Header) : Option Text :=
  header.enclosingName.or ((parent.filter (·.kind.category = .type)).map (·.name))

end Header

end NamingAdvice
