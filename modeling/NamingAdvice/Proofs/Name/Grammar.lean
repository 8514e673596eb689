import Mathlib.Computability.Language
import NamingAdvice.Proofs.Name.Verdict

/-! The names that a rule accepts, as regular languages of code points. Both rules forbid that
two code points of one sort, the marks, are neighbours: upper-case letters in camel case and
underscores in all caps. Reading such a word takes one flag, for a mark right in front. What
may follow in either state is a linear equation between languages, and Arden's lemma solves it.
-/

namespace NamingAdvice

theorem CodePoint.isDigit_underscore : CodePoint.underscore.isDigit = false := by
  decide +kernel

namespace Name

open scoped Computability

/-- The words of one code point that passes a test. -/
def letter (test : CodePoint → Bool) : Language CodePoint :=
  {word | ∃ point, test point = true ∧ word = [point]}

/-- A word of a language or nothing. -/
def maybe (words : Language CodePoint) : Language CodePoint :=
  1 + words

/-- The words of marks and other code points in which no two marks are neighbours. -/
def spaced (mark other : CodePoint → Bool) : Language CodePoint :=
  {word | (∀ point ∈ word, mark point = true ∨ other point = true) ∧ ¬ Adjacent mark word}

/-- What may follow a mark in such a word. -/
def behindMark (mark other : CodePoint → Bool) : Language CodePoint :=
  {word | word ∈ spaced mark other ∧ ∀ first ∈ word.head?, mark first = false}

section Words

variable {mark other test : CodePoint → Bool} {words : Language CodePoint}
  {point : CodePoint} {rest : List CodePoint}

-----------------------------------------------------------------------------------------
-- One code point at a time
-----------------------------------------------------------------------------------------

theorem mem_letter_iff {word : List CodePoint}
    : word ∈ letter test ↔ ∃ point, test point = true ∧ word = [point] :=
  Iff.rfl

theorem mem_spaced_iff {word : List CodePoint}
    : word ∈ spaced mark other
      ↔ (∀ point ∈ word, mark point = true ∨ other point = true) ∧ ¬ Adjacent mark word :=
  Iff.rfl

theorem mem_behindMark_iff {word : List CodePoint}
    : word ∈ behindMark mark other
      ↔ word ∈ spaced mark other ∧ ∀ first ∈ word.head?, mark first = false :=
  Iff.rfl

theorem nil_notMem_letter_mul : [] ∉ letter test * words := by
  intro h
  obtain ⟨_, ⟨point, -, rfl⟩, _, -, he⟩ := Language.mem_mul.mp h
  simp at he

theorem cons_mem_letter_mul_iff
    : point :: rest ∈ letter test * words ↔ test point = true ∧ rest ∈ words := by
  constructor
  · intro h
    obtain ⟨_, ⟨first, ht, rfl⟩, tail, hw, he⟩ := Language.mem_mul.mp h
    obtain ⟨rfl, rfl⟩ := List.cons.inj he
    exact ⟨ht, hw⟩
  · intro h
    exact Language.append_mem_mul (mem_letter_iff.mpr ⟨point, h.1, rfl⟩) h.2

theorem nil_mem_spaced : [] ∈ spaced mark other :=
  ⟨by simp, not_adjacent_of_length_lt (by simp)⟩

theorem nil_mem_behindMark : [] ∈ behindMark mark other :=
  ⟨nil_mem_spaced, by simp⟩

/-- A mark raises the flag. -/
theorem cons_mem_spaced_of_mark (hm : mark point = true)
    : point :: rest ∈ spaced mark other ↔ rest ∈ behindMark mark other := by
  cases rest with
  | nil =>
      refine iff_of_true ⟨?_, not_adjacent_of_length_lt (by simp)⟩ nil_mem_behindMark
      simp [hm]
  | cons second tail =>
      have split := adjacent_cons_iff mark point second tail
      simp only [hm, true_and] at split
      constructor
      · intro h
        obtain ⟨ha, hn⟩ := h
        rw [split, not_or] at hn
        exact ⟨⟨fun each hmem => ha each (List.mem_cons_of_mem _ hmem), hn.2⟩,
          by simpa using hn.1⟩
      · intro h
        obtain ⟨⟨ha, hn⟩, hf⟩ := h
        refine ⟨List.forall_mem_cons.mpr ⟨Or.inl hm, ha⟩, ?_⟩
        rw [split, not_or]
        exact ⟨by simpa using hf, hn⟩

/-- Any other code point keeps the flag down. -/
theorem cons_mem_spaced_of_not_mark (hm : mark point = false)
    : point :: rest ∈ spaced mark other ↔ other point = true ∧ rest ∈ spaced mark other := by
  rw [mem_spaced_iff, mem_spaced_iff, adjacent_cons_of_not mark rest hm, List.forall_mem_cons]
  simp [hm, and_assoc]

/-- While the flag is up there is no mark, and any other code point takes it down. -/
theorem cons_mem_behindMark_iff
    : point :: rest ∈ behindMark mark other
      ↔ mark point = false ∧ other point = true ∧ rest ∈ spaced mark other := by
  have head : (∀ first ∈ (point :: rest).head?, mark first = false) ↔ mark point = false := by
    simp
  rw [mem_behindMark_iff, head, and_comm]
  refine and_congr_right ?_
  intro hm
  exact cons_mem_spaced_of_not_mark hm

-----------------------------------------------------------------------------------------
-- Whole words
-----------------------------------------------------------------------------------------

theorem spaced_eq : spaced mark other = maybe (letter mark) * behindMark mark other := by
  rw [maybe, add_mul, one_mul]
  ext word
  rw [Language.mem_add]
  cases word with
  | nil => exact iff_of_true nil_mem_spaced (Or.inl nil_mem_behindMark)
  | cons point rest =>
      rw [cons_mem_behindMark_iff, cons_mem_letter_mul_iff]
      cases hm : mark point with
      | true => simp [cons_mem_spaced_of_mark hm]
      | false => simp [cons_mem_spaced_of_not_mark hm]

theorem behindMark_eq (apart : ∀ point, other point = true → mark point = false)
    : behindMark mark other = letter other * spaced mark other + 1 := by
  ext word
  rw [Language.mem_add, Language.mem_one]
  cases word with
  | nil => exact iff_of_true nil_mem_behindMark (Or.inr rfl)
  | cons point rest =>
      rw [cons_mem_behindMark_iff, cons_mem_letter_mul_iff]
      constructor
      · intro h
        exact Or.inl h.2
      · intro h
        rcases h with h | h
        · exact ⟨apart point h.1, h⟩
        · cases h

/-- A word with marks that are no neighbours: other code points, each with at most one mark in
front, and at most one mark at the end.
-/
theorem spaced_eq_kstar (apart : ∀ point, other point = true → mark point = false)
    : spaced mark other = (maybe (letter mark) * letter other)∗ * maybe (letter mark) := by
  refine (Language.self_eq_mul_add_iff ?_).mp ?_
  · rw [maybe, add_mul, one_mul, Language.mem_add]
    simp [mem_letter_iff, nil_notMem_letter_mul]
  · calc
      spaced mark other
        = maybe (letter mark) * behindMark mark other := spaced_eq
      _ = maybe (letter mark) * (letter other * spaced mark other + 1) := by
          rw [← behindMark_eq apart]
      _ = maybe (letter mark) * letter other * spaced mark other + maybe (letter mark) := by
          rw [mul_add, mul_one, mul_assoc]

/-- Behind a mark there are other code points, each followed by at most one mark. -/
theorem behindMark_eq_kstar (apart : ∀ point, other point = true → mark point = false)
    : behindMark mark other = (letter other * maybe (letter mark))∗ := by
  rw [← mul_one (_∗)]
  refine (Language.self_eq_mul_add_iff nil_notMem_letter_mul).mp ?_
  calc
    behindMark mark other
      = letter other * spaced mark other + 1 := behindMark_eq apart
    _ = letter other * (maybe (letter mark) * behindMark mark other) + 1 := by
        rw [← spaced_eq]
    _ = letter other * maybe (letter mark) * behindMark mark other + 1 := by
        rw [mul_assoc]

end Words

-----------------------------------------------------------------------------------------
-- The names that are accepted
-----------------------------------------------------------------------------------------

/-- A code point that a name in all caps may hold besides underscores. -/
def isCap (point : CodePoint) : Bool :=
  point.isUpper || point.isDigit

def isUnderscore (point : CodePoint) : Bool :=
  point == CodePoint.underscore

def isNotUpper (point : CodePoint) : Bool :=
  !point.isUpper

/-- The names in all caps, `U (_? (U|D))* _?` with `U` for an upper-case letter and `D` for a
decimal digit.
-/
def capsNames : Language CodePoint :=
  letter CodePoint.isUpper
    * (maybe (letter isUnderscore) * (letter CodePoint.isUpper + letter CodePoint.isDigit))∗
    * maybe (letter isUnderscore)

/-- The names in camel case, `U (N U?)*` or `L U? (N U?)*` with `U` for an upper-case letter, `L`
for a lower-case letter and `N` for any code point that is not upper case.
-/
def camelNames : InitialCase → Language CodePoint
  | .upper =>
      letter CodePoint.isUpper
        * (letter isNotUpper * maybe (letter CodePoint.isUpper))∗
  | .lower =>
      letter CodePoint.isLower
        * maybe (letter CodePoint.isUpper)
        * (letter isNotUpper * maybe (letter CodePoint.isUpper))∗

theorem isUnderscore_eq_false_of_isCap (point : CodePoint) (h : isCap point = true)
    : isUnderscore point = false := by
  refine beq_eq_false_iff_ne.mpr ?_
  intro he
  rw [he, isCap, CodePoint.isUpper_underscore, CodePoint.isDigit_underscore] at h
  cases h

theorem isUpper_eq_false_of_isNotUpper (point : CodePoint) (h : isNotUpper point = true)
    : point.isUpper = false := by
  simpa [isNotUpper] using h

theorem letter_isCap
    : letter isCap = letter CodePoint.isUpper + letter CodePoint.isDigit := by
  ext word
  simp only [Language.mem_add, mem_letter_iff, isCap, Bool.or_eq_true, or_and_right, exists_or]

theorem capsNames_eq : capsNames = letter CodePoint.isUpper * spaced isUnderscore isCap := by
  rw [capsNames, ← letter_isCap, mul_assoc, ← spaced_eq_kstar isUnderscore_eq_false_of_isCap]

theorem mem_spaced_isUnderscore_iff (word : List CodePoint)
    : word ∈ spaced isUnderscore isCap
      ↔ (∀ point ∈ word,
          point.isUpper = true ∨ point.isDigit = true ∨ point = CodePoint.underscore)
        ∧ ¬ Adjacent (· == CodePoint.underscore) word := by
  refine and_congr_left' (forall₂_congr ?_)
  intro point _
  rw [isUnderscore, isCap, beq_iff_eq, Bool.or_eq_true, or_comm, or_assoc]

/-- The grammar of all caps describes the names in all caps. The letter in front is no
underscore, so the neighbours to look at are those behind it.
-/
theorem mem_capsNames_iff (name : Text) : name.codePoints ∈ capsNames ↔ InCaps name := by
  rw [capsNames_eq]
  cases hp : name.codePoints with
  | nil =>
      refine iff_of_false nil_notMem_letter_mul ?_
      intro given
      exact not_starts_of_codePoints_eq_nil hp given.starts
  | cons first rest =>
      have skip (hu : first.isUpper = true)
          : Adjacent (· == CodePoint.underscore) (first :: rest)
            ↔ Adjacent (· == CodePoint.underscore) rest :=
        adjacent_cons_of_not _ rest (isUnderscore_eq_false_of_isCap first (by simp [isCap, hu]))
      rw [cons_mem_letter_mul_iff, mem_spaced_isUnderscore_iff]
      constructor
      · intro given
        obtain ⟨hu, hm, ha⟩ := given
        refine ⟨first, rest, hp, hu, hm, ?_⟩
        rwa [hp, skip hu]
      · intro given
        obtain ⟨other, tail, he, hu, hm, ha⟩ := given
        rw [hp] at he ha
        obtain ⟨rfl, rfl⟩ := List.cons.inj he
        rw [skip hu] at ha
        exact ⟨hu, hm, ha⟩

theorem mem_spaced_isUpper_iff (word : List CodePoint)
    : word ∈ spaced CodePoint.isUpper isNotUpper ↔ ¬ Adjacent CodePoint.isUpper word := by
  refine and_iff_right ?_
  intro point _
  cases hu : point.isUpper <;> simp [isNotUpper, hu]

/-- The grammars of camel case describe the names that start in the right case and have no two
neighbours in upper case. An upper-case letter in front is a mark, a lower-case one is not.
-/
theorem mem_camelNames_iff (initial : InitialCase) (name : Text)
    : name.codePoints ∈ camelNames initial
      ↔ Starts initial.test name ∧ ¬ Adjacent CodePoint.isUpper name.codePoints := by
  have behind := behindMark_eq_kstar isUpper_eq_false_of_isNotUpper
  have lower : camelNames .lower
      = letter CodePoint.isLower * spaced CodePoint.isUpper isNotUpper := by
    rw [camelNames, mul_assoc, ← behind, ← spaced_eq]
  cases hp : name.codePoints with
  | nil =>
      refine iff_of_false ?_ ?_
      · cases initial with
        | upper => exact nil_notMem_letter_mul
        | lower => exact lower ▸ nil_notMem_letter_mul
      · intro given
        exact not_starts_of_codePoints_eq_nil hp given.1
  | cons first rest =>
      rw [starts_iff_of_codePoints hp, ← mem_spaced_isUpper_iff]
      cases initial with
      | upper =>
          rw [camelNames, ← behind, cons_mem_letter_mul_iff]
          refine and_congr_right ?_
          intro hu
          exact (cons_mem_spaced_of_mark hu).symm
      | lower =>
          rw [lower, cons_mem_letter_mul_iff]
          refine and_congr_right ?_
          intro hl
          have hu := CodePoint.isUpper_eq_false_of_isLower hl
          rw [cons_mem_spaced_of_not_mark hu]
          simp [isNotUpper, hu]

/-- A name gets no advice about all caps exactly if it belongs to the grammar, and otherwise
the one that quotes it.
-/
theorem allCaps_recognizes (name : Text)
    : (allCaps name = none ↔ name.codePoints ∈ capsNames)
      ∧ (allCaps name = some .allCaps ↔ name.codePoints ∉ capsNames)
      ∧ Advisory.Code.allCaps.message name
        = text "Constant '" ++ name ++ text "' should be all caps starting with a letter" := by
  refine ⟨?_, ?_, rfl⟩
  · rw [allCaps_eq_none_iff, mem_capsNames_iff]
  · rw [allCaps_eq_some_iff, mem_capsNames_iff]
    exact and_iff_right rfl

/-- A letter beyond the basic plane counts as one, and an underscore may be the last. -/
example : allCaps (text "A_1_𐐀_") = none ∧ allCaps (text "A__1") = some .allCaps := by
  decide +kernel

/-- A name gets no advice about camel case exactly if it belongs to the grammar. A start in the
other case has an advice of its own, whatever follows, and every other name outside of the
grammar gets the general one; each of them quotes the name.
-/
theorem camelCase_recognizes (initial : InitialCase) (name : Text)
    : (camelCase initial name = none ↔ name.codePoints ∈ camelNames initial)
      ∧ (camelCase initial name = some .initialLower
          ↔ initial = .lower ∧ Starts CodePoint.isUpper name)
      ∧ (camelCase initial name = some .initialUpper
          ↔ initial = .upper ∧ Starts CodePoint.isLower name)
      ∧ (camelCase initial name = some .camelCase
          ↔ name.codePoints ∉ camelNames initial
            ∧ ¬ (initial = .lower ∧ Starts CodePoint.isUpper name)
            ∧ ¬ (initial = .upper ∧ Starts CodePoint.isLower name))
      ∧ Advisory.Code.initialLower.message name
        = text "Name '" ++ name ++ text "' should start lowercase"
      ∧ Advisory.Code.initialUpper.message name
        = text "Name '" ++ name ++ text "' should start uppercase"
      ∧ Advisory.Code.camelCase.message name
        = text "Name '" ++ name ++ text "' should follow camelCase" := by
  have accepted : camelCase initial name = none ↔ name.codePoints ∈ camelNames initial := by
    rw [camelCase_eq_none_iff, mem_camelNames_iff]
  have faults := camelCase_eq_some_iff initial name
  have lower : camelCase initial name = some .initialLower
      ↔ initial = .lower ∧ Starts CodePoint.isUpper name := faults .initialLower
  have upper : camelCase initial name = some .initialUpper
      ↔ initial = .upper ∧ Starts CodePoint.isLower name := faults .initialUpper
  refine ⟨accepted, lower, upper, ?_, rfl, rfl, rfl⟩
  rw [← accepted, ← lower, ← upper]
  cases h : camelCase initial name with
  | none => simp
  | some code =>
      -- The other two codes are no faults of camel case.
      cases code with
      | camelCase => simp
      | initialLower => simp
      | initialUpper => simp
      | allCaps => exact ((faults .allCaps).mp h).elim
      | methodNamedLikeType => exact ((faults .methodNamedLikeType).mp h).elim

/-- A digit separates two upper-case letters, and a title-case letter has neither case. -/
example
    : camelCase .upper (text "A1B") = none
      ∧ camelCase .upper (text "ǅa") = some .camelCase
      ∧ camelCase .lower (text "ABc") = some .initialLower := by
  decide +kernel

end Name

end NamingAdvice
