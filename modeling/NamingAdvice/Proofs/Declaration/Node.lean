import NamingAdvice.Proofs.Declaration.Fields

/-! The reader of a node as one equation: a header, children that default to none, and the
check for repeated modifiers behind both. Statements about all nodes go by induction on what
stands below a node, and every result of the readers is honest.
-/

namespace NamingAdvice

/-- Induction over JSON values as nodes: an object may use the statement for the items of its
list of children.
-/
theorem Json.nodeInduction {motive : Json → Prop}
    (object
      : ∀ members,
          (∀ items, members.lookup Key.children = some (.array items)
            → ∀ item ∈ items, motive item)
          → motive (.object members))
    (other : ∀ value : Json, value.shape ≠ .object → motive value) (value : Json)
    : motive value := by
  cases value with
  | object members =>
      refine object members (fun items hl item hm => ?_)
      have hc := Json.sizeOf_lt_of_lookup hl
      have hi := List.sizeOf_lt_of_mem hm
      exact nodeInduction object other item
  | _ => exact other _ (by simp [Json.shape])
termination_by sizeOf value
decreasing_by
  simp only [Json.array.sizeOf_spec, Json.object.sizeOf_spec] at *
  omega

namespace Declaration

open Validated (refuse Honest)

theorem readNode_of_shape_ne {value : Json} (h : value.shape ≠ .object)
    : readNode value = refuse (.wrongShape .object value.shape) := by
  cases value <;> simp_all [readNode, Json.shape]

theorem readForest_of_shape_ne {value : Json} (h : value.shape ≠ .array)
    : readForest value = refuse (.wrongShape .array value.shape) := by
  cases value <;> simp_all [readForest, Json.shape]

theorem readNodes_eq (index : Nat) (items : List Json)
    : readNodes index items = readEach readNode index items := by
  induction items generalizing index with
  | nil => rw [readNodes, readEach]
  | cons item items ih => rw [readNodes, readEach, ih]

theorem readForest_array (items : List Json)
    : readForest (.array items) = readEach readNode 0 items := by
  rw [readForest, readNodes_eq]

/-- A node is a header and children, with its own modifiers looked at last. -/
theorem readNode_object (members : List (Text × Json))
    : readNode (.object members)
      = (Declaration.mk
          <$> readHeader members
          <*> (Option.getD · []) <$> optional Key.children readForest members).also
        (fun declaration => repeatedModifiers [] 0 declaration.modifiers) := by
  rw [readNode]
  split
  · next value hl => rw [optional, hl, Validated.map_getD_under]
  · next hl =>
      rw [optional, hl]
      rfl

/-- The issues of a node: those of its header, those below it, and modifiers that repeat. -/
theorem issues_readNode_object (members : List (Text × Json))
    : (readNode (.object members)).issues
      = (readHeader members).issues
        ++ (optional Key.children readForest members).issues
        ++ ((readNode (.object members)).value?.map
          (fun declaration => repeatedModifiers [] 0 declaration.modifiers)).getD [] := by
  rw [readNode_object]
  rfl

-----------------------------------------------------------------------------------------
-- Every result is honest
-----------------------------------------------------------------------------------------

theorem honest_readText (value : Json) : Honest (readText value) := by
  cases value <;> first | exact Validated.honest_pure _ | exact Validated.honest_refuse rfl

theorem honest_readBool (value : Json) : Honest (readBool value) := by
  cases value <;> first | exact Validated.honest_pure _ | exact Validated.honest_refuse rfl

theorem honest_readLabel {α : Type} (labels : List Text) (ofLabel? : Text → Option α)
    (value : Json)
    : Honest (readLabel labels ofLabel? value) := by
  cases value with
  | string label =>
      rw [readLabel]
      split
      · exact Validated.honest_pure _
      · exact Validated.honest_refuse rfl
  | _ => exact Validated.honest_refuse rfl

theorem honest_readEach {α : Type} {read : Json → Validated α} (index : Nat)
    {items : List Json} (h : ∀ item ∈ items, Honest (read item))
    : Honest (readEach read index items) := by
  induction items generalizing index with
  | nil => exact Validated.honest_pure _
  | cons item items ih =>
      have first := (h item (by simp)).under (.index index)
      exact (first.map _).seq (ih (index + 1) (fun other ho => h other (by simp [ho])))

theorem honest_readModifiers (value : Json) : Honest (readModifiers value) := by
  cases value with
  | array items => exact honest_readEach 0 (fun item _ => honest_readLabel _ _ item)
  | _ => exact Validated.honest_refuse rfl

theorem honest_required {α : Type} {key : Text} {read : Json → Validated α}
    {members : List (Text × Json)} (h : ∀ value, Honest (read value))
    : Honest (required key read members) := by
  refine Validated.Honest.under ?_ _
  split
  · exact h _
  · exact Validated.honest_refuse rfl

theorem honest_optional {α : Type} {key : Text} {read : Json → Validated α}
    {members : List (Text × Json)}
    (h : ∀ value, members.lookup key = some value → Honest (read value))
    : Honest (optional key read members) := by
  rw [optional]
  split
  · next value hl => exact ((h value hl).map _).under _
  · exact Validated.honest_pure _

theorem honest_readHeader (members : List (Text × Json)) : Honest (readHeader members) := by
  have kind : Honest (required Key.kind readKind members) :=
    honest_required (honest_readLabel _ _)
  have name : Honest (required Key.name readText members) := honest_required honest_readText
  have modifiers : Honest (optional Key.modifiers readModifiers members) :=
    honest_optional (fun value _ => honest_readModifiers value)
  have enclosingKind : Honest (optional Key.enclosingKind readKind members) :=
    honest_optional (fun value _ => honest_readLabel _ _ value)
  have enclosingName : Honest (optional Key.enclosingName readText members) :=
    honest_optional (fun value _ => honest_readText value)
  have known : Honest (optional Key.constantValueKnown readBool members) :=
    honest_optional (fun value _ => honest_readBool value)
  exact (((((kind.map _).seq name).seq (modifiers.map _)).seq enclosingKind).seq
    enclosingName).seq (known.map _)

/-- The check at the end of a node finds nothing but repeated modifiers. -/
theorem isRepeat_of_mem_repeatedModifiers {seen modifiers : List Modifier} {index : Nat}
    {issue : Issue} (h : issue ∈ repeatedModifiers seen index modifiers)
    : issue.cause.isRepeat = true := by
  induction modifiers generalizing seen index with
  | nil => cases h
  | cons modifier rest ih =>
      rw [repeatedModifiers, List.mem_append] at h
      rcases h with h | h
      · split at h
        · rw [List.mem_singleton.mp h]
          rfl
        · cases h
      · exact ih h

theorem honest_readForest {value : Json}
    (h : ∀ items, value = .array items → ∀ item ∈ items, Honest (readNode item))
    : Honest (readForest value) := by
  cases value with
  | array items =>
      rw [readForest_array]
      exact honest_readEach 0 (h items rfl)
  | _ =>
      rw [readForest_of_shape_ne (by simp [Json.shape])]
      exact Validated.honest_refuse rfl

theorem honest_readNode (value : Json) : Honest (readNode value) := by
  induction value using Json.nodeInduction with
  | object members ih =>
      rw [readNode_object]
      have children : Honest (optional Key.children readForest members) :=
        honest_optional (fun value hl =>
          honest_readForest (fun items he => ih items (he ▸ hl)))
      exact (((honest_readHeader members).map _).seq (children.map _)).also
        (fun _ _ hm => isRepeat_of_mem_repeatedModifiers hm)
  | other value h =>
      rw [readNode_of_shape_ne h]
      exact Validated.honest_refuse rfl

end Declaration

end NamingAdvice
