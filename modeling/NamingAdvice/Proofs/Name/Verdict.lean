import NamingAdvice.Name.AllCaps
import NamingAdvice.Name.CamelCase
import NamingAdvice.Proofs.Text.LetterCase

/-! What the verdicts on a name say about its code points. The conditions are stated on the
name as a whole, by its first code point and by neighbours, and mention neither the scan nor
the order in which its tests are made.
-/

namespace NamingAdvice

theorem CodePoint.isUpper_underscore : CodePoint.underscore.isUpper = false := by
  decide +kernel

/-- Only the empty text has no code points. -/
theorem Text.codePoints_eq_nil_iff {name : Text} : name.codePoints = [] ↔ name = [] := by
  fun_cases Text.codePoints name <;> simp

namespace Name

/-- The first code point of a name passes a test. -/
def Starts (test : CodePoint → Bool) (name : Text) : Prop :=
  ∃ first rest, name.codePoints = first :: rest ∧ test first = true

/-- The first code point of a name is neither upper nor lower case. -/
def StartsUncased (name : Text) : Prop :=
  Starts (fun point => !point.isUpper && !point.isLower) name

/-- Somewhere in a list two neighbours both pass a test. -/
def Adjacent (test : CodePoint → Bool) (points : List CodePoint) : Prop :=
  ∃ before first second after,
    points = before ++ first :: second :: after ∧ test first = true ∧ test second = true

/-- A name in all caps: an upper-case letter first, then upper-case letters, decimal digits
and underscores, no two of which are neighbours.
-/
def InCaps (name : Text) : Prop :=
  ∃ first rest,
    name.codePoints = first :: rest
    ∧ first.isUpper = true
    ∧ (∀ point ∈ rest,
        point.isUpper = true ∨ point.isDigit = true ∨ point = CodePoint.underscore)
    ∧ ¬ Adjacent (· == CodePoint.underscore) name.codePoints

/-- What is wrong with a name that should be in camel case, code by code. -/
def CamelFault (initial : InitialCase) (name : Text) : Advisory.Code → Prop
  | .initialLower => initial = .lower ∧ Starts CodePoint.isUpper name
  | .initialUpper => initial = .upper ∧ Starts CodePoint.isLower name
  | .camelCase =>
      name = []
      ∨ StartsUncased name
      ∨ (initial = .upper ∧ Starts CodePoint.isUpper name
          ∨ initial = .lower ∧ Starts CodePoint.isLower name)
        ∧ Adjacent CodePoint.isUpper name.codePoints
  | _ => False

-----------------------------------------------------------------------------------------
-- The scans
-----------------------------------------------------------------------------------------

theorem adjacent_cons_iff (test : CodePoint → Bool) (first second : CodePoint)
    (rest : List CodePoint)
    : Adjacent test (first :: second :: rest)
      ↔ (test first = true ∧ test second = true) ∨ Adjacent test (second :: rest) := by
  constructor
  · intro h
    obtain ⟨before, left, right, after, he, hl, hr⟩ := h
    cases before with
    | nil =>
        obtain ⟨rfl, rfl, rfl⟩ : first = left ∧ second = right ∧ rest = after := by
          simpa using he
        exact Or.inl ⟨hl, hr⟩
    | cons head before => exact Or.inr ⟨before, left, right, after, (List.cons.inj he).2, hl, hr⟩
  · intro h
    rcases h with ⟨hf, hs⟩ | ⟨before, left, right, after, he, hl, hr⟩
    · exact ⟨[], first, second, rest, rfl, hf, hs⟩
    · exact ⟨first :: before, left, right, after, by rw [he]; rfl, hl, hr⟩

theorem not_adjacent_of_length_lt {test : CodePoint → Bool} {points : List CodePoint}
    (h : points.length < 2)
    : ¬ Adjacent test points := by
  intro given
  obtain ⟨before, left, right, after, rfl, -, -⟩ := given
  simp only [List.length_append, List.length_cons] at h
  omega

/-- A first element that fails the test has no part in neighbours that pass it. -/
theorem adjacent_cons_of_not (test : CodePoint → Bool) {first : CodePoint}
    (rest : List CodePoint) (h : test first = false)
    : Adjacent test (first :: rest) ↔ Adjacent test rest := by
  cases rest with
  | nil =>
      exact iff_of_false (not_adjacent_of_length_lt (by simp))
        (not_adjacent_of_length_lt (by simp))
  | cons second rest => simp [adjacent_cons_iff, h]

/-- The scan for neighbours finds them wherever they stand, by induction along the scan. -/
theorem hasAdjacent_eq_true_iff (test : CodePoint → Bool) (points : List CodePoint)
    : hasAdjacent test points = true ↔ Adjacent test points := by
  induction points with
  | nil => simpa [hasAdjacent] using not_adjacent_of_length_lt (by simp)
  | cons first rest ih =>
      cases rest with
      | nil => simpa [hasAdjacent] using not_adjacent_of_length_lt (by simp)
      | cons second rest =>
          rw [adjacent_cons_iff, ← ih]
          simp [hasAdjacent]

/-- The flag of the scan stands for an underscore in front of what is left. -/
theorem continuesInCaps_eq_true_iff (underscored : Bool) (points : List CodePoint)
    : continuesInCaps underscored points = true
      ↔ (∀ point ∈ points,
          point.isUpper = true ∨ point.isDigit = true ∨ point = CodePoint.underscore)
        ∧ ¬ Adjacent (· == CodePoint.underscore)
            (if underscored then CodePoint.underscore :: points else points) := by
  have base : ¬ Adjacent (· == CodePoint.underscore)
      (if underscored then [CodePoint.underscore] else []) :=
    not_adjacent_of_length_lt (by cases underscored <;> simp)
  induction points generalizing underscored with
  | nil => simpa [continuesInCaps] using base
  | cons point rest ih =>
      -- An underscore raises the flag, anything else clears it: the neighbours that are left
      -- to look at are those of the rest behind the code point just read.
      by_cases hu : point = CodePoint.underscore
      · subst hu
        have next := ih true (not_adjacent_of_length_lt (by simp))
        cases underscored <;>
          simp_all [continuesInCaps, adjacent_cons_iff]
      · have next := ih false (not_adjacent_of_length_lt (by simp))
        have skip := adjacent_cons_of_not (· == CodePoint.underscore) rest
          (beq_eq_false_iff_ne.mpr hu)
        cases underscored <;>
          simp_all [continuesInCaps, adjacent_cons_iff, and_assoc]

-----------------------------------------------------------------------------------------
-- The verdicts
-----------------------------------------------------------------------------------------

theorem starts_iff_of_codePoints {test : CodePoint → Bool} {name : Text} {first : CodePoint}
    {rest : List CodePoint} (h : name.codePoints = first :: rest)
    : Starts test name ↔ test first = true := by
  constructor
  · intro given
    obtain ⟨other, tail, he, ht⟩ := given
    rw [h] at he
    rwa [(List.cons.inj he).1]
  · intro ht
    exact ⟨first, rest, h, ht⟩

/-- Camel case gives a code exactly where the name has the fault of that code. The case of the
first code point decides which faults are left, and it has at most one.
-/
theorem camelCase_eq_some_iff (initial : InitialCase) (name : Text) (code : Advisory.Code)
    : camelCase initial name = some code ↔ CamelFault initial name code := by
  cases hp : name.codePoints with
  | nil =>
      have he : name = [] := Text.codePoints_eq_nil_iff.mp hp
      have none : ∀ test, ¬ Starts test name := by
        intro test given
        obtain ⟨first, rest, h, -⟩ := given
        simp [hp] at h
      cases code <;> simp [camelCase, Text.codePoints, CamelFault, he, he ▸ none]
  | cons first rest =>
      have hne : name ≠ [] := by
        intro he
        simp [Text.codePoints_eq_nil_iff.mpr he] at hp
      have starts : ∀ test, Starts test name ↔ test first = true :=
        fun test => starts_iff_of_codePoints hp
      cases hu : first.isUpper with
      | true =>
          have hl := CodePoint.isLower_eq_false_of_isUpper hu
          cases initial <;> cases code <;>
            simp [camelCase, hp, CamelFault, StartsUncased, starts, hne, hu, hl,
              hasAdjacent_eq_true_iff]
      | false =>
          cases hl : first.isLower <;> cases initial <;> cases code <;>
            simp [camelCase, hp, CamelFault, StartsUncased, starts, hne, hu, hl,
              hasAdjacent_eq_true_iff]

/-- A name in all caps gets no advice and any other gets the one about all caps. -/
theorem allCaps_eq_some_iff (name : Text) (code : Advisory.Code)
    : allCaps name = some code ↔ code = .allCaps ∧ ¬ InCaps name := by
  cases hp : name.codePoints with
  | nil =>
      have none : ¬ InCaps name := by
        intro given
        obtain ⟨first, rest, h, -⟩ := given
        simp [hp] at h
      simp [allCaps, hp, none, eq_comm]
  | cons first rest =>
      have good : InCaps name
          ↔ first.isUpper = true ∧ continuesInCaps false rest = true := by
        have skip (hu : first.isUpper = true)
            : Adjacent (· == CodePoint.underscore) (first :: rest)
              ↔ Adjacent (· == CodePoint.underscore) rest := by
          refine adjacent_cons_of_not _ rest (beq_eq_false_iff_ne.mpr ?_)
          rintro rfl
          simp [CodePoint.isUpper_underscore] at hu
        rw [continuesInCaps_eq_true_iff]
        constructor
        · intro given
          obtain ⟨other, tail, he, hu, hm, ha⟩ := given
          rw [hp] at he ha
          obtain ⟨rfl, rfl⟩ := List.cons.inj he
          exact ⟨hu, hm, fun h => ha ((skip hu).mpr (by simpa using h))⟩
        · intro given
          obtain ⟨hu, hm, ha⟩ := given
          refine ⟨first, rest, hp, hu, hm, ?_⟩
          rw [hp, skip hu]
          simpa using ha
      rw [good, ← Bool.and_eq_true]
      simp only [allCaps, hp]
      split
      · next h => simp [h]
      · next h => simp [h, eq_comm]

theorem not_starts_of_codePoints_eq_nil {test : CodePoint → Bool} {name : Text}
    (h : name.codePoints = [])
    : ¬ Starts test name := by
  intro given
  obtain ⟨first, rest, hp, -⟩ := given
  simp [h] at hp

theorem InCaps.starts {name : Text} (h : InCaps name) : Starts CodePoint.isUpper name := by
  obtain ⟨first, rest, hp, hu, -⟩ := h
  exact ⟨first, rest, hp, hu⟩

/-- The code points that a name may start with. -/
def InitialCase.test : InitialCase → CodePoint → Bool
  | .upper => CodePoint.isUpper
  | .lower => CodePoint.isLower

/-- Camel case is content with a name that starts in the right case and has no two neighbours
in upper case.
-/
theorem camelCase_eq_none_iff (initial : InitialCase) (name : Text)
    : camelCase initial name = none
      ↔ Starts initial.test name ∧ ¬ Adjacent CodePoint.isUpper name.codePoints := by
  cases hp : name.codePoints with
  | nil => simp [camelCase, hp, not_starts_of_codePoints_eq_nil hp]
  | cons first rest =>
      rw [starts_iff_of_codePoints hp, ← hasAdjacent_eq_true_iff]
      cases hu : first.isUpper with
      | true =>
          have hl := CodePoint.isLower_eq_false_of_isUpper hu
          cases initial <;> simp [camelCase, InitialCase.test, hp, hu, hl]
      | false =>
          cases hl : first.isLower <;> cases initial <;>
            simp [camelCase, InitialCase.test, hp, hu, hl]

theorem allCaps_eq_none_iff (name : Text) : allCaps name = none ↔ InCaps name := by
  rw [Option.eq_none_iff_forall_ne_some]
  simp [allCaps_eq_some_iff]

end Name

end NamingAdvice
