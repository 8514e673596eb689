import NamingAdvice.Name.AllCaps
import NamingAdvice.Name.CamelCase
import NamingAdvice.Proofs.Text.CharacterClass

/-! The order in which a rule tests a code point does not matter. The rules are written out once more
with the order of their questions as a parameter, each question put to the units of the code point as
a text. At most one question has the answer yes, so every order leads to the same verdict.
-/

namespace NamingAdvice.Name

/-- What a rule asks about a code point. -/
inductive Question where
  | isUnderscore
  | isOf (cls : CharacterClass)
deriving DecidableEq, Repr

/-- The answer to a question about a code point. -/
def Question.answer : Question → CodePoint → Bool
  | .isUnderscore, point => point.units == CodePoint.underscore.units
  | .isOf cls, point => cls.testWhole point.units

/-- The first question, in a given order, to which the answer is yes. -/
def firstYes (order : List Question) (point : CodePoint) : Option Question :=
  order.find? (·.answer point)

/-- The advice about camel case, asking in a given order about the first code point. -/
def camelCaseAsking (order : List Question) (initial : InitialCase) (name : Text)
    : Option Advisory.Code :=
  match name.codePoints with
  | [] => some .camelCase
  | first :: rest =>
      match firstYes order first, initial with
      | some (.isOf .upper), .lower => some .initialLower
      | some (.isOf .lower), .upper => some .initialUpper
      | some (.isOf .upper), .upper
      | some (.isOf .lower), .lower =>
          if hasAdjacent CodePoint.isUpper (first :: rest) then some .camelCase else none
      | _, _ => some .camelCase

/-- Reads the rest of a name in all caps, asking in a given order about each code point. -/
def continuesInCapsAsking (order : List Question) (underscored : Bool) : List CodePoint → Bool
  | [] => true
  | point :: rest =>
      match firstYes order point with
      | some .isUnderscore => !underscored && continuesInCapsAsking order true rest
      | some (.isOf _) => continuesInCapsAsking order false rest
      | none => false

/-- The advice about all caps, asking in a given order about each code point but the first. -/
def allCapsAsking (order : List Question) (name : Text) : Option Advisory.Code :=
  match name.codePoints with
  | [] => some .allCaps
  | first :: rest =>
      if CharacterClass.upper.testWhole first.units && continuesInCapsAsking order false rest then
        none
      else
        some .allCaps

-----------------------------------------------------------------------------------------
-- At most one yes
-----------------------------------------------------------------------------------------

/-- No two questions about a code point have the answer yes. -/
theorem Question.answer_unique {left right : Question} {point : CodePoint}
    (hl : left.answer point = true) (hr : right.answer point = true)
    : left = right := by
  have one : CodePoint.underscore.units.codePoints = [CodePoint.underscore] := rfl
  have classless (cls : CharacterClass) (underscored : isUnderscore.answer point = true)
      : (isOf cls).answer point = false := by
    have same : point.units = CodePoint.underscore.units := beq_iff_eq.mp underscored
    rw [answer, same, CharacterClass.testWhole_of_codePoints cls one,
      CharacterClass.test_eq_false_of_classless cls (by decide)]
  cases left with
  | isUnderscore =>
      cases right with
      | isUnderscore => rfl
      | isOf cls =>
          rw [classless cls hl] at hr
          contradiction
  | isOf cls =>
      cases right with
      | isUnderscore =>
          rw [classless cls hr] at hl
          contradiction
      | isOf other => rw [CharacterClass.testWhole_unique hl hr]

theorem firstYes_eq_some_iff (order : List Question) (point : CodePoint) (question : Question)
    : firstYes order point = some question
      ↔ question ∈ order ∧ question.answer point = true := by
  have yes_of {found : Question} (h : firstYes order point = some found)
      : found.answer point = true := by
    rw [firstYes] at h
    simpa using List.find?_some h
  constructor
  · intro h
    exact ⟨List.mem_of_find?_eq_some h, yes_of h⟩
  · intro h
    obtain ⟨listed, yes⟩ := h
    obtain ⟨found, hf⟩ : ∃ found, firstYes order point = some found :=
      Option.isSome_iff_exists.mp (List.find?_isSome.mpr ⟨question, listed, yes⟩)
    rw [hf, Question.answer_unique (yes_of hf) yes]

/-- The first yes is the only one, so it does not depend on the order. -/
theorem firstYes_eq_of_perm {order other : List Question} (h : order.Perm other)
    : firstYes order = firstYes other := by
  funext point
  refine Option.ext (fun question => ?_)
  rw [firstYes_eq_some_iff, firstYes_eq_some_iff, h.mem_iff]

theorem continuesInCapsAsking_eq_of_perm {order other : List Question} (h : order.Perm other)
    (underscored : Bool) (points : List CodePoint)
    : continuesInCapsAsking order underscored points
      = continuesInCapsAsking other underscored points := by
  induction points generalizing underscored with
  | nil => rfl
  | cons point rest ih => simp only [continuesInCapsAsking, firstYes_eq_of_perm h, ih]

-----------------------------------------------------------------------------------------
-- The order of the rules themselves
-----------------------------------------------------------------------------------------

/-- Put to a code point of a name, a question of class is a look into the table. -/
theorem answer_isOf {name : Text} {point : CodePoint} (h : point ∈ name.codePoints)
    (cls : CharacterClass)
    : (Question.isOf cls).answer point = cls.test point :=
  cls.testWhole_of_codePoints (Text.codePoints_units_of_mem h)

theorem answer_isUnderscore (point : CodePoint)
    : Question.isUnderscore.answer point = (point == CodePoint.underscore) := by
  rw [Bool.eq_iff_iff, beq_iff_eq, Question.answer, beq_iff_eq, CodePoint.units_injective.eq_iff]

/-- Camel case asks for upper case first. -/
theorem camelCaseAsking_eq (initial : InitialCase) (name : Text)
    : camelCaseAsking [.isOf .upper, .isOf .lower] initial name = camelCase initial name := by
  cases hp : name.codePoints with
  | nil => simp [camelCaseAsking, camelCase, hp]
  | cons first rest =>
      have listed : first ∈ name.codePoints := hp ▸ List.mem_cons_self
      have upper : (Question.isOf .upper).answer first = first.isUpper := answer_isOf listed .upper
      have lower : (Question.isOf .lower).answer first = first.isLower := answer_isOf listed .lower
      cases hu : first.isUpper <;> cases hl : first.isLower <;> cases initial <;>
        simp [camelCaseAsking, camelCase, hp, firstYes, upper, lower, hu, hl]

/-- All caps asks for the underscore first, by induction on what is left to read. -/
theorem continuesInCapsAsking_eq {name : Text} (underscored : Bool) {points : List CodePoint}
    (h : ∀ point ∈ points, point ∈ name.codePoints)
    : continuesInCapsAsking [.isUnderscore, .isOf .upper, .isOf .digit] underscored points
      = continuesInCaps underscored points := by
  induction points generalizing underscored with
  | nil => rfl
  | cons point rest ih =>
      obtain ⟨listed, others⟩ := List.forall_mem_cons.mp h
      have upper : (Question.isOf .upper).answer point = point.isUpper := answer_isOf listed .upper
      have digit : (Question.isOf .digit).answer point = point.isDigit := answer_isOf listed .digit
      cases hm : point == CodePoint.underscore <;> cases hu : point.isUpper <;>
        cases hd : point.isDigit <;>
        simp [continuesInCapsAsking, continuesInCaps, firstYes, answer_isUnderscore, upper, digit,
          hm, hu, hd, ih _ others]

theorem allCapsAsking_eq (name : Text)
    : allCapsAsking [.isUnderscore, .isOf .upper, .isOf .digit] name = allCaps name := by
  cases hp : name.codePoints with
  | nil => simp [allCapsAsking, allCaps, hp]
  | cons first rest =>
      have listed : ∀ point ∈ first :: rest, point ∈ name.codePoints := by simp [hp]
      obtain ⟨own, others⟩ := List.forall_mem_cons.mp listed
      have upper : CharacterClass.upper.testWhole first.units = first.isUpper :=
        answer_isOf own .upper
      simp only [allCapsAsking, allCaps, hp, upper, continuesInCapsAsking_eq false others]

/-- The classes are exclusive: a text is of at most one. It is of a class exactly if it is a single
code point from the table of that class, and then it is neither a lone surrogate nor the underscore.
Hence the rules may ask in any order: camel case gives the same advice whether it asks for upper or
for lower case first, and all caps does wherever it asks for the underscore, before the classes,
behind them or between.
-/
theorem classes_exclusive (whole : Text)
    : (∀ left right : CharacterClass,
        left.testWhole whole = true → right.testWhole whole = true → left = right)
      ∧ (∀ cls : CharacterClass,
          cls.testWhole whole = true
          ↔ ∃ point,
              whole.codePoints = [point] ∧ cls.table.any (·.contains point.value) = true)
      ∧ (∀ cls : CharacterClass,
          cls.testWhole whole = true
          → ∃ point,
              whole.codePoints = [point]
              ∧ ¬ point.IsLoneSurrogate
              ∧ point ≠ CodePoint.underscore)
      ∧ (∀ order initial,
          order.Perm [.isOf .upper, .isOf .lower]
          → camelCaseAsking order initial whole = camelCase initial whole)
      ∧ ∀ order,
          order.Perm [.isUnderscore, .isOf .upper, .isOf .digit]
          → allCapsAsking order whole = allCaps whole := by
  refine ⟨?_, ?_, ?_, ?_, ?_⟩
  · intro left right hl hr
    exact CharacterClass.testWhole_unique hl hr
  · intro cls
    simp only [CharacterClass.testWhole_eq_true_iff, CharacterClass.test_eq]
  · intro cls h
    exact CharacterClass.exists_of_testWhole h
  · intro order initial perm
    rw [← camelCaseAsking_eq]
    simp only [camelCaseAsking, firstYes_eq_of_perm perm]
  · intro order perm
    rw [← allCapsAsking_eq]
    simp only [allCapsAsking, continuesInCapsAsking_eq_of_perm perm]

/-- A capital beyond the basic plane is upper case and nothing else, though it is two surrogates;
and a constant with underscores and a digit is judged the same in the opposite order.
-/
theorem mathCapital_exclusive
    : (CharacterClass.upper.testWhole [0xD835, 0xDC00] = true
        ∧ (∀ cls : CharacterClass, cls.testWhole [0xD835, 0xDC00] = true → cls = .upper)
        ∧ ∃ point,
            Text.codePoints [0xD835, 0xDC00] = [point]
            ∧ ¬ point.IsLoneSurrogate
            ∧ point ≠ CodePoint.underscore)
      ∧ ([Question.isOf .lower, .isOf .upper].Perm [.isOf .upper, .isOf .lower]
          ∧ camelCaseAsking [.isOf .lower, .isOf .upper] .lower (text "MAX_1_B")
            = camelCase .lower (text "MAX_1_B"))
      ∧ [Question.isOf .digit, .isOf .upper, .isUnderscore].Perm
          [.isUnderscore, .isOf .upper, .isOf .digit]
        ∧ allCapsAsking [.isOf .digit, .isOf .upper, .isUnderscore] (text "MAX_1_B")
          = allCaps (text "MAX_1_B") := by
  have upper : CharacterClass.upper.testWhole [0xD835, 0xDC00] = true := by decide +kernel
  have swapped : [Question.isOf .lower, .isOf .upper].Perm [.isOf .upper, .isOf .lower] := by
    decide
  have turned : [Question.isOf .digit, .isOf .upper, .isUnderscore].Perm
      [.isUnderscore, .isOf .upper, .isOf .digit] := by
    decide
  obtain ⟨unique, -, single, -, -⟩ := classes_exclusive [0xD835, 0xDC00]
  obtain ⟨-, -, -, camel, caps⟩ := classes_exclusive (text "MAX_1_B")
  refine ⟨⟨upper, ?_, single .upper upper⟩, ⟨swapped, camel _ .lower swapped⟩, turned, ?_⟩
  · intro cls passed
    exact unique cls .upper passed upper
  · exact caps _ turned

end NamingAdvice.Name
