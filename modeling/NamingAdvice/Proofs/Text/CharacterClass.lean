import NamingAdvice.Proofs.Text.LetterCase
import NamingAdvice.Proofs.Text.MaximalMunch

/-! The classes of characters exclude each other. No code point is in two of the three tables, and
neither the underscore nor a surrogate is in any of them. A text has a class only if it is one code
point, so the same holds of texts of any length.
-/

namespace NamingAdvice

namespace CharacterTable

/-- The numbers of the underscore and of the surrogates. -/
def classless : List Run := [⟨0x5F, 0x5F, 1⟩, ⟨0xD800, 0xDFFF, 1⟩]

end CharacterTable

/-- A code point that is half of a surrogate pair, without the other half. -/
def CodePoint.IsLoneSurrogate (point : CodePoint) : Prop :=
  ∃ unit, point = .single unit
    ∧ (unit.isHighSurrogate = true ∨ unit.isLowSurrogate = true)

namespace CharacterClass

/-- The table of a class. -/
def table : CharacterClass → List CharacterTable.Run
  | .upper => CharacterTable.uppercase
  | .lower => CharacterTable.lowercase
  | .digit => CharacterTable.decimalDigit

/-- Whether a code point is of a class. -/
def test : CharacterClass → CodePoint → Bool
  | .upper => CodePoint.isUpper
  | .lower => CodePoint.isLower
  | .digit => CodePoint.isDigit

/-- Whether a text, as a whole, is of a class. -/
def testWhole : CharacterClass → Text → Bool
  | .upper => Text.isUpper
  | .lower => Text.isLower
  | .digit => Text.isDigit

theorem test_eq (cls : CharacterClass) (point : CodePoint)
    : cls.test point = cls.table.any (·.contains point.value) := by
  cases cls <;> rfl

-----------------------------------------------------------------------------------------
-- Code points
-----------------------------------------------------------------------------------------

theorem apart_classless (cls : CharacterClass)
    : CharacterTable.apart CharacterTable.classless cls.table = true := by
  cases cls <;> decide +kernel

/-- A code point is of at most one class, since the tables share no number. -/
theorem test_unique {left right : CharacterClass} {point : CodePoint}
    (hl : left.test point = true) (hr : right.test point = true)
    : left = right := by
  have cased : point.isUpper = true → point.isLower = false :=
    CodePoint.isLower_eq_false_of_isUpper
  have upper : point.isUpper = true → point.isDigit = false :=
    CharacterTable.not_any_contains_of_apart CharacterTable.uppercase_apart_decimalDigit
  have lower : point.isLower = true → point.isDigit = false :=
    CharacterTable.not_any_contains_of_apart CharacterTable.lowercase_apart_decimalDigit
  cases left <;> cases right <;> simp_all [test]

theorem test_eq_false_of_classless (cls : CharacterClass) {point : CodePoint}
    (h : CharacterTable.classless.any (·.contains point.value) = true)
    : cls.test point = false := by
  rw [test_eq]
  exact CharacterTable.not_any_contains_of_apart (apart_classless cls) h

theorem ne_underscore_of_test {cls : CharacterClass} {point : CodePoint}
    (h : cls.test point = true)
    : point ≠ CodePoint.underscore := by
  intro same
  rw [same, test_eq_false_of_classless cls (by decide)] at h
  contradiction

theorem not_isLoneSurrogate_of_test {cls : CharacterClass} {point : CodePoint}
    (h : cls.test point = true)
    : ¬ point.IsLoneSurrogate := by
  intro lone
  obtain ⟨unit, rfl, half⟩ := lone
  have range : 0xD800 ≤ unit.toNat ∧ unit.toNat ≤ 0xDFFF := by
    rcases half with high | low
    · have bounds := CodeUnit.toNat_of_isHighSurrogate high
      omega
    · have bounds := CodeUnit.toNat_of_isLowSurrogate low
      omega
  have value : (CodePoint.single unit).value = unit.toNat := rfl
  have listed
      : CharacterTable.classless.any (·.contains (CodePoint.single unit).value) = true := by
    rw [value]
    simp [CharacterTable.classless, CharacterTable.Run.contains, range, Nat.mod_one]
  rw [test_eq_false_of_classless cls listed] at h
  exact Bool.false_ne_true h

-----------------------------------------------------------------------------------------
-- Texts
-----------------------------------------------------------------------------------------

theorem testWhole_eq (cls : CharacterClass) (whole : Text)
    : cls.testWhole whole = Text.isOne cls.test whole := by
  cases cls <;> rfl

theorem testWhole_of_codePoints (cls : CharacterClass) {whole : Text} {point : CodePoint}
    (h : whole.codePoints = [point])
    : cls.testWhole whole = cls.test point := by
  rw [testWhole_eq, Text.isOne, h]

/-- A text has a class exactly if it is one code point of that class. -/
theorem testWhole_eq_true_iff (cls : CharacterClass) (whole : Text)
    : cls.testWhole whole = true
      ↔ ∃ point, whole.codePoints = [point] ∧ cls.test point = true := by
  constructor
  · intro h
    rw [testWhole_eq, Text.isOne] at h
    split at h
    · next point one => exact ⟨point, one, h⟩
    · contradiction
  · intro h
    obtain ⟨point, one, passed⟩ := h
    rw [testWhole_of_codePoints cls one, passed]

theorem testWhole_unique {left right : CharacterClass} {whole : Text}
    (hl : left.testWhole whole = true) (hr : right.testWhole whole = true)
    : left = right := by
  obtain ⟨point, one, passed⟩ := (testWhole_eq_true_iff left whole).mp hl
  rw [testWhole_of_codePoints right one] at hr
  exact test_unique passed hr

/-- A text of a class is a single code point, neither a lone surrogate nor the underscore. -/
theorem exists_of_testWhole {cls : CharacterClass} {whole : Text}
    (h : cls.testWhole whole = true)
    : ∃ point,
        whole.codePoints = [point]
        ∧ ¬ point.IsLoneSurrogate
        ∧ point ≠ CodePoint.underscore := by
  obtain ⟨point, one, passed⟩ := (testWhole_eq_true_iff cls whole).mp h
  exact ⟨point, one, not_isLoneSurrogate_of_test passed, ne_underscore_of_test passed⟩

end CharacterClass

end NamingAdvice
