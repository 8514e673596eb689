import NamingAdvice.Proofs.Text.Segment
import NamingAdvice.Survey

/-! Positions of declarations in a forest. A position lists the index of a root and then, step
by step, the index of a child; looked up in a forest it gives a declaration together with the
header of the declaration right above it. The path of a position is a text, and different
positions below the same base have different paths.
-/

namespace NamingAdvice

/-- The declaration at a position below a given one, with the header right above it. -/
def Declaration.locate (parent : Option Header) (declaration : Declaration)
    : List Nat → Option (Option Header × Declaration)
  | [] => some (parent, declaration)
  | index :: rest =>
      declaration.children[index]?.bind (·.locate (some declaration.toHeader) rest)

namespace Survey

/-- The declaration at a position of a forest, with the header right above it if it is not a
root.
-/
def locate (forest : List Declaration) : List Nat → Option (Option Header × Declaration)
  | [] => none
  | index :: rest => forest[index]?.bind (·.locate none rest)

/-- The path of a position below the declaration at a path. -/
def pathBelow (path : Text) : List Nat → Text
  | [] => path
  | index :: rest => pathBelow (pathAt (childBase path) index) rest

/-- The path of a position in a forest whose paths start with a base. -/
def pathOf (base : Text) : List Nat → Text
  | [] => base
  | index :: rest => pathBelow (pathAt base index) rest

/-- The segments that a position below a declaration adds to its path. -/
def segmentsBelow (position : List Nat) : List Text :=
  position.flatMap (fun index => [text "children", Text.ofNat index])

/-- The segments that a position in a forest adds to the base. -/
def segments : List Nat → List Text
  | [] => []
  | index :: rest => Text.ofNat index :: segmentsBelow rest

theorem pathAt_eq (base : Text) (index : Nat)
    : pathAt base index = base ++ Text.slashed [Text.ofNat index] := by
  simp [pathAt, Text.text_slash, Text.slashed]

theorem childBase_eq (path : Text)
    : childBase path = path ++ Text.slashed [text "children"] := by
  have split : text "/children" = Text.slash :: text "children" := by decide
  simp [childBase, split, Text.slashed]

theorem pathBelow_eq (path : Text) (position : List Nat)
    : pathBelow path position = path ++ Text.slashed (segmentsBelow position) := by
  induction position generalizing path with
  | nil => simp [pathBelow, segmentsBelow, Text.slashed]
  | cons index rest ih =>
      rw [pathBelow, ih, pathAt_eq, childBase_eq]
      simp [segmentsBelow, Text.slashed]

theorem pathOf_eq (base : Text) (position : List Nat)
    : pathOf base position = base ++ Text.slashed (segments position) := by
  cases position with
  | nil => simp [pathOf, segments, Text.slashed]
  | cons index rest =>
      rw [pathOf, pathBelow_eq, pathAt_eq]
      simp [segments, Text.slashed]

-----------------------------------------------------------------------------------------
-- Paths tell positions apart
-----------------------------------------------------------------------------------------

/-- A segment of a path is the key of the children or a number. -/
theorem eq_key_or_number_of_mem_segments {position : List Nat} {segment : Text}
    (h : segment ∈ segments position)
    : segment = text "children" ∨ ∃ index, segment = Text.ofNat index := by
  cases position with
  | nil => simp [segments] at h
  | cons index rest =>
      rcases List.mem_cons.mp h with rfl | h
      · exact .inr ⟨index, rfl⟩
      · obtain ⟨index, -, hm⟩ := List.mem_flatMap.mp h
        rcases List.mem_cons.mp hm with rfl | hm
        · exact .inl rfl
        · exact .inr ⟨index, List.mem_singleton.mp hm⟩

theorem slash_not_mem_segments (position : List Nat)
    : ∀ segment ∈ segments position, Text.slash ∉ segment := by
  have key : Text.slash ∉ text "children" := by decide
  intro segment hs
  rcases eq_key_or_number_of_mem_segments hs with rfl | ⟨index, rfl⟩
  · exact key
  · exact Text.slash_not_mem_ofNat index

theorem segmentsBelow_injective {left right : List Nat}
    (h : segmentsBelow left = segmentsBelow right)
    : left = right := by
  induction left generalizing right with
  | nil =>
      cases right with
      | nil => rfl
      | cons index rest => simp [segmentsBelow] at h
  | cons index rest ih =>
      cases right with
      | nil => simp [segmentsBelow] at h
      | cons other more =>
          obtain ⟨hi, hr⟩ : Text.ofNat index = Text.ofNat other
              ∧ segmentsBelow rest = segmentsBelow more := by
            simpa [segmentsBelow] using h
          rw [Text.ofNat_injective hi, ih hr]

theorem segments_injective {left right : List Nat} (h : segments left = segments right)
    : left = right := by
  cases left with
  | nil =>
      cases right with
      | nil => rfl
      | cons index rest => simp [segments] at h
  | cons index rest =>
      cases right with
      | nil => simp [segments] at h
      | cons other more =>
          obtain ⟨hi, hr⟩ := List.cons.inj h
          rw [Text.ofNat_injective hi, segmentsBelow_injective hr]

/-- The segments of a position start with those of another one exactly if the position does. -/
theorem segmentsBelow_prefix_iff {left right : List Nat}
    : segmentsBelow left <+: segmentsBelow right ↔ left <+: right := by
  induction left generalizing right with
  | nil => simp [segmentsBelow]
  | cons index rest ih =>
      cases right with
      | nil => simp [segmentsBelow]
      | cons other more =>
          have same : Text.ofNat index = Text.ofNat other ↔ index = other :=
            ⟨Text.ofNat_injective, congrArg Text.ofNat⟩
          simpa [segmentsBelow, List.cons_prefix_cons, same] using fun _ => ih

theorem segments_prefix_iff {left right : List Nat}
    : segments left <+: segments right ↔ left <+: right := by
  cases left with
  | nil => simp [segments]
  | cons index rest =>
      cases right with
      | nil => simp [segments]
      | cons other more =>
          have same : Text.ofNat index = Text.ofNat other ↔ index = other :=
            ⟨Text.ofNat_injective, congrArg Text.ofNat⟩
          rw [segments, segments, List.cons_prefix_cons, List.cons_prefix_cons, same,
            segmentsBelow_prefix_iff]

/-- Positions with the same path below the same base are the same, by cutting the paths into
segments and reading the numbers back.
-/
theorem pathOf_injective {base : Text} {left right : List Nat}
    (h : pathOf base left = pathOf base right)
    : left = right := by
  rw [pathOf_eq, pathOf_eq] at h
  exact segments_injective
    (Text.slashed_injective (slash_not_mem_segments left) (slash_not_mem_segments right)
      (List.append_cancel_left h))

/-- A path goes on from another one by whole segments exactly if the position does by whole
steps: the tenth child is not within the first.
-/
theorem within_pathOf_iff {base : Text} {left right : List Nat}
    : Text.Within (pathOf base left) (pathOf base right) ↔ left <+: right := by
  rw [pathOf_eq, pathOf_eq,
    Text.within_slashed_iff (slash_not_mem_segments left) (slash_not_mem_segments right),
    segments_prefix_iff]

end Survey

end NamingAdvice
