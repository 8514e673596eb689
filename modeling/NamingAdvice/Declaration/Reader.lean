import NamingAdvice.Declaration
import NamingAdvice.Declaration.Validated

/-! Reading a forest from a JSON value. Every node is visited, its fields in a fixed order,
its children last; keys that mean nothing are passed over. Modifiers may not repeat, which is
looked at only where a node and all below it could be made out.
-/

namespace NamingAdvice

/-! The keys of a node. -/

namespace Key

def kind : Text := text "kind"
def name : Text := text "simple_name"
def modifiers : Text := text "modifiers"
def enclosingKind : Text := text "enclosing_kind"
def enclosingName : Text := text "enclosing_name"
def constantValueKnown : Text := text "constant_value_known"
def children : Text := text "children"

end Key

namespace Declaration

open Validated (refuse)

def readText : Json → Validated Text
  | .string value => pure value
  | other => refuse (.wrongShape .string other.shape)

def readBool : Json → Validated Bool
  | .bool value => pure value
  | other => refuse (.wrongShape .boolean other.shape)

/-- Reads one of a list of labels. -/
def readLabel {α : Type} (labels : List Text) (ofLabel? : Text → Option α) : Json → Validated α
  | .string label =>
      match ofLabel? label with
      | some value => pure value
      | none => refuse (.unknownLabel labels label)
  | other => refuse (.wrongShape (.oneOf labels) other.shape)

def readKind : Json → Validated Kind :=
  readLabel (Kind.all.map Kind.label) Kind.ofLabel?

def readModifier : Json → Validated Modifier :=
  readLabel (Modifier.all.map Modifier.label) Modifier.ofLabel?

/-- Reads items from an index on. -/
def readEach {α : Type} (read : Json → Validated α) (index : Nat)
    : List Json → Validated (List α)
  | [] => pure []
  | item :: items =>
      List.cons <$> (read item).under (.index index) <*> readEach read (index + 1) items

def readModifiers : Json → Validated (List Modifier)
  | .array items => readEach readModifier 0 items
  | other => refuse (.wrongShape .array other.shape)

/-- A member that has to be there. -/
def required {α : Type} (key : Text) (read : Json → Validated α) (members : List (Text × Json))
    : Validated α :=
  Validated.under (.key key) <|
    match members.lookup key with
    | some value => read value
    | none => refuse .missing

/-- A member that may be left out. -/
def optional {α : Type} (key : Text) (read : Json → Validated α) (members : List (Text × Json))
    : Validated (Option α) :=
  match members.lookup key with
  | some value => Validated.under (.key key) (some <$> read value)
  | none => pure none

/-- Reads everything about a node but its children. -/
def readHeader (members : List (Text × Json)) : Validated Header :=
  Header.mk
    <$> required Key.kind readKind members
    <*> required Key.name readText members
    <*> (Option.getD · []) <$> optional Key.modifiers readModifiers members
    <*> optional Key.enclosingKind readKind members
    <*> optional Key.enclosingName readText members
    <*> (Option.getD · false) <$> optional Key.constantValueKnown readBool members

/-- An issue for every modifier that stands earlier in the list already. -/
def repeatedModifiers (seen : List Modifier) (index : Nat) : List Modifier → List Issue
  | [] => []
  | modifier :: rest =>
      (if seen.contains modifier then
        [⟨.repeatedModifier modifier, [.key Key.modifiers, .index index]⟩] else [])
        ++ repeatedModifiers (modifier :: seen) (index + 1) rest

mutual

def readNode : Json → Validated Declaration
  | .object members =>
      let children : Validated (List Declaration) :=
        match _h : members.lookup Key.children with
        | some value => (readForest value).under (.key Key.children)
        | none => pure []
      (Declaration.mk <$> readHeader members <*> children).also
        (fun declaration => repeatedModifiers [] 0 declaration.modifiers)
  | other => refuse (.wrongShape .object other.shape)
termination_by value => sizeOf value
decreasing_by
  have := Json.sizeOf_lt_of_lookup _h
  simp only [Json.object.sizeOf_spec]
  omega

/-- Reads a list of nodes. -/
def readForest : Json → Validated (List Declaration)
  | .array items => readNodes 0 items
  | other => refuse (.wrongShape .array other.shape)
termination_by value => sizeOf value

/-- Reads nodes from an index on. -/
def readNodes (index : Nat) : List Json → Validated (List Declaration)
  | [] => pure []
  | item :: items =>
      List.cons <$> (readNode item).under (.index index) <*> readNodes (index + 1) items
termination_by items => sizeOf items

end

/-- The forest that a JSON value stands for, or everything that is wrong with it. A value
that is not there at all is missing.
-/
def read (input : Option Json) : Except (List Issue) (List Declaration) :=
  Validated.toExcept <|
    match input with
    | some value => readForest value
    | none => refuse .missing

end Declaration

end NamingAdvice
