import NamingAdvice.Proofs.Declaration.Misfit

/-! The order in which issues are listed. Each step of a place has a rank among its neighbours,
and the ranks along an issue's place decide where it stands: fields in a fixed order, children
after them one by one, and the modifiers that a node repeats at its very end.
-/

namespace NamingAdvice

/-- The keys of a node, in the order in which they are looked at. -/
def Key.inOrder : List Text :=
  [kind, name, modifiers, enclosingKind, enclosingName, constantValueKnown, children]

namespace Issue

/-- The rank of a step. For a repeated modifier, the list of modifiers comes behind all keys. -/
def stepRank (isRepeat : Bool) : Step → Nat
  | .index position => position
  | .key name =>
      if isRepeat && name == Key.modifiers then Key.inOrder.length
      else Key.inOrder.idxOf name

def rank (issue : Issue) : List Nat :=
  issue.place.map (stepRank issue.cause.isRepeat)

/-- One issue is listed before another. -/
def Before (first second : Issue) : Prop :=
  List.Lex (· < ·) first.rank second.rank

theorem Before.rank_ne {first second : Issue} (h : Before first second)
    : first.rank ≠ second.rank := by
  intro same
  rw [Before, same] at h
  exact List.lex_irrefl (fun rank => Nat.lt_irrefl rank) second.rank h

/-- Issues of one sort stand in order only if their places differ. -/
theorem Before.place_ne {first second : Issue} (h : Before first second)
    (sort : first.cause.isRepeat = second.cause.isRepeat)
    : first.place ≠ second.place := by
  intro same
  exact h.rank_ne (by rw [rank, rank, sort, same])

theorem rank_under (step : Step) (issue : Issue)
    : (issue.under step).rank = stepRank issue.cause.isRepeat step :: issue.rank := rfl

/-- Issues in order, all at one rank. -/
structure Block (rank : Nat) (issues : List Issue) : Prop where
  ordered : issues.Pairwise Before
  led : ∀ issue ∈ issues, ∃ rest, issue.rank = rank :: rest

/-- Issues in order, all at a rank or behind it. -/
structure Onward (rank : Nat) (issues : List Issue) : Prop where
  ordered : issues.Pairwise Before
  led : ∀ issue ∈ issues, ∃ later rest, rank ≤ later ∧ issue.rank = later :: rest

theorem Block.onward {rank : Nat} {issues : List Issue} (h : Block rank issues)
    : Onward rank issues where
  ordered := h.ordered
  led issue hm := by
    obtain ⟨rest, hr⟩ := h.led issue hm
    exact ⟨rank, rest, Nat.le_refl rank, hr⟩

/-- A block goes in front of what lies behind its rank. -/
theorem Block.append {rank : Nat} {first rest : List Issue} (hf : Block rank first)
    (hr : Onward (rank + 1) rest)
    : Onward rank (first ++ rest) where
  ordered := by
    refine List.pairwise_append.mpr ⟨hf.ordered, hr.ordered, ?_⟩
    intro one hone other hother
    obtain ⟨_, hone⟩ := hf.led one hone
    obtain ⟨later, _, behind, hother⟩ := hr.led other hother
    rw [Before, hone, hother]
    exact .rel behind
  led issue hm := by
    rcases List.mem_append.mp hm with hm | hm
    · exact hf.onward.led issue hm
    · obtain ⟨later, place, behind, hp⟩ := hr.led issue hm
      exact ⟨later, place, Nat.le_of_succ_le behind, hp⟩

/-- Issues in order stay so when seen from one step further out. -/
theorem block_under {rank : Nat} {step : Step} {issues : List Issue}
    (ordered : issues.Pairwise Before)
    (same : ∀ issue ∈ issues, stepRank issue.cause.isRepeat step = rank)
    : Block rank (issues.map (·.under step)) where
  ordered := by
    refine List.pairwise_map.mpr (ordered.imp_of_mem ?_)
    intro one other hone hother before
    rw [Before, rank_under, rank_under, same one hone, same other hother]
    exact .cons before
  led issue hm := by
    obtain ⟨inner, hi, rfl⟩ := List.mem_map.mp hm
    exact ⟨inner.rank, by rw [rank_under, same inner hi]⟩

end Issue

namespace Declaration

open Issue (Before Block Onward stepRank block_under)

theorem ordered_readText (value : Json) : (readText value).issues.Pairwise Before := by
  cases value <;> simp [readText]

theorem ordered_readBool (value : Json) : (readBool value).issues.Pairwise Before := by
  cases value <;> simp [readBool]

theorem ordered_readLabel {α : Type} (labels : List Text) (ofLabel? : Text → Option α)
    (value : Json)
    : (readLabel labels ofLabel? value).issues.Pairwise Before := by
  cases value with
  | string label =>
      rw [readLabel]
      split <;> simp
  | _ => simp [readLabel]

/-- The issues of a list follow its indices, by induction on the list. -/
theorem onward_readEach {α : Type} {read : Json → Validated α} (index : Nat)
    {items : List Json} (h : ∀ item ∈ items, (read item).issues.Pairwise Before)
    : Onward index (readEach read index items).issues := by
  induction items generalizing index with
  | nil => exact ⟨.nil, by simp [readEach]⟩
  | cons item items ih =>
      have first : Block index ((read item).under (.index index)).issues :=
        block_under (h item (by simp)) (fun _ _ => rfl)
      exact first.append (ih (index + 1) (fun other ho => h other (by simp [ho])))

theorem ordered_readModifiers (value : Json)
    : (readModifiers value).issues.Pairwise Before := by
  cases value with
  | array items => exact (onward_readEach 0 (fun item _ => ordered_readLabel _ _ item)).ordered
  | _ => simp [readModifiers]

theorem ordered_readForest {value : Json}
    (h : ∀ items, value = .array items → ∀ item ∈ items, (readNode item).issues.Pairwise Before)
    : (readForest value).issues.Pairwise Before := by
  cases value with
  | array items =>
      rw [readForest_array]
      exact (onward_readEach 0 (h items rfl)).ordered
  | _ =>
      rw [readForest_of_shape_ne (by simp [Json.shape])]
      simp

theorem block_required {α : Type} {key : Text} {read : Json → Validated α}
    {members : List (Text × Json)} {rank : Nat}
    (ordered : ∀ value, (read value).issues.Pairwise Before)
    (h : ∀ isRepeat, stepRank isRepeat (.key key) = rank)
    : Block rank (required key read members).issues := by
  refine block_under ?_ (fun issue _ => h issue.cause.isRepeat)
  split
  · exact ordered _
  · exact List.pairwise_singleton _ _

theorem block_optional {α : Type} {key : Text} {read : Json → Validated α}
    {members : List (Text × Json)} {rank : Nat}
    (ordered
      : ∀ value, members.lookup key = some value → (read value).issues.Pairwise Before)
    (h : ∀ isRepeat, stepRank isRepeat (.key key) = rank)
    : Block rank (optional key read members).issues := by
  rw [optional]
  split
  · next value hl =>
      exact block_under (ordered value hl) (fun issue _ => h issue.cause.isRepeat)
  · exact ⟨.nil, by simp⟩

/-- The list of modifiers keeps its place among the fields, since reading it finds no repeated
modifier yet.
-/
theorem block_modifiers (members : List (Text × Json))
    : Block 2 (optional Key.modifiers readModifiers members).issues := by
  rw [optional]
  split
  · next value hl =>
      refine block_under (ordered_readModifiers value) ?_
      intro issue hm
      obtain ⟨cause, place⟩ := issue
      have first : cause.isRepeat = false := by
        rcases mem_issues_readModifiers_iff.mp hm with ⟨-, wrong⟩ | hi
        · exact wrong.isRepeat
        · obtain ⟨_, _, _, -, -, -, wrong⟩ := hi
          exact wrong.isRepeat
      rw [first]
      decide
  · exact ⟨.nil, by simp⟩

-----------------------------------------------------------------------------------------
-- Nodes
-----------------------------------------------------------------------------------------

theorem rank_of_mem_repeatedModifiers {seen modifiers : List Modifier} {index : Nat}
    {issue : Issue} (h : issue ∈ repeatedModifiers seen index modifiers)
    : ∃ position, index ≤ position ∧ issue.rank = [Key.inOrder.length, position] := by
  rcases issue with ⟨cause, place⟩
  obtain ⟨offset, modifier, -, -, rfl, rfl⟩ := (mem_repeatedModifiers_iff index).mp h
  exact ⟨index + offset, Nat.le_add_right index offset, rfl⟩

/-- Repeated modifiers are listed as they stand, by induction on the list. -/
theorem block_repeatedModifiers (seen : List Modifier) (index : Nat)
    (modifiers : List Modifier)
    : Block Key.inOrder.length (repeatedModifiers seen index modifiers) where
  ordered := by
    induction modifiers generalizing seen index with
    | nil => exact .nil
    | cons modifier rest ih =>
        refine List.pairwise_append.mpr ⟨?_, ih (modifier :: seen) (index + 1), ?_⟩
        · split <;> simp
        · intro first hf second hs
          obtain ⟨position, behind, hp⟩ := rank_of_mem_repeatedModifiers hs
          split at hf
          · rw [List.mem_singleton.mp hf, Before, hp]
            exact .cons (.rel behind)
          · cases hf
  led issue hm := by
    obtain ⟨position, -, hp⟩ := rank_of_mem_repeatedModifiers hm
    exact ⟨[position], hp⟩

/-- The issues of a node are in order: its fields, its children, its repeated modifiers. -/
theorem ordered_readNode (value : Json) : (readNode value).issues.Pairwise Before := by
  induction value using Json.nodeInduction with
  | object members ih =>
      have kind : Block 0 (required Key.kind readKind members).issues :=
        block_required (ordered_readLabel _ _) (by decide)
      have name : Block 1 (required Key.name readText members).issues :=
        block_required ordered_readText (by decide)
      have modifiers := block_modifiers members
      have enclosingKind : Block 3 (optional Key.enclosingKind readKind members).issues :=
        block_optional (fun value _ => ordered_readLabel _ _ value) (by decide)
      have enclosingName : Block 4 (optional Key.enclosingName readText members).issues :=
        block_optional (fun value _ => ordered_readText value) (by decide)
      have known : Block 5 (optional Key.constantValueKnown readBool members).issues :=
        block_optional (fun value _ => ordered_readBool value) (by decide)
      have children : Block 6 (optional Key.children readForest members).issues :=
        block_optional
          (fun value hl => ordered_readForest (fun items he => ih items (he ▸ hl)))
          (by decide)
      have repeats : Block 7 (((readNode (.object members)).value?.map
          (fun declaration => repeatedModifiers [] 0 declaration.modifiers)).getD []) := by
        cases (readNode (.object members)).value? with
        | none => exact ⟨.nil, by simp⟩
        | some declaration => exact block_repeatedModifiers [] 0 declaration.modifiers
      have all := kind.append (name.append (modifiers.append (enclosingKind.append
        (enclosingName.append (known.append (children.append repeats.onward))))))
      rw [issues_readNode_object, issues_readHeader]
      simpa using all.ordered
  | other value h =>
      rw [readNode_of_shape_ne h]
      exact List.pairwise_singleton _ _

end Declaration

end NamingAdvice
