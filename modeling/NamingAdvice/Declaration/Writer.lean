import NamingAdvice.Declaration.Reader

/-! Writing a forest as a JSON value: every field of a node in its place, what is enclosing
it only where it is stated.
-/

namespace NamingAdvice

/-- The members that hold a header. -/
def Header.members (header : Header) : List (Text × Json) :=
  [(Key.kind, .string header.kind.label),
    (Key.name, .string header.name),
    (Key.modifiers, .array (header.modifiers.map (fun modifier => .string modifier.label)))]
  ++ (header.enclosingKind.map (fun kind => (Key.enclosingKind, Json.string kind.label))).toList
  ++ (header.enclosingName.map (fun name => (Key.enclosingName, Json.string name))).toList
  ++ [(Key.constantValueKnown, .bool header.constantValueKnown)]

namespace Declaration

mutual

def toJson : Declaration → Json
  | ⟨header, children⟩ => .object (header.members ++ [(Key.children, .array (toJsonList children))])

def toJsonList : List Declaration → List Json
  | [] => []
  | declaration :: rest => toJson declaration :: toJsonList rest

end

/-- A whole forest as a JSON value. -/
def forestToJson (forest : List Declaration) : Json :=
  .array (toJsonList forest)

end Declaration

end NamingAdvice
