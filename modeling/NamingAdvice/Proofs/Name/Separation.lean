import NamingAdvice.Convention
import NamingAdvice.Proofs.Name.Verdict

/-! The three conventions tell names apart. A name that follows lower camel case follows no other
convention, so a well-named variable that is taken for a constant by mistake, or the other way
round, never goes unnoticed. The two conventions that start in upper case share a small set of
names.
-/

namespace NamingAdvice

namespace Name

/-- No name starts in both cases, by the case of its first code point. -/
theorem not_starts_isLower_of_starts_isUpper {name : Text}
    (h : Starts CodePoint.isUpper name)
    : ¬ Starts CodePoint.isLower name := by
  obtain ⟨first, rest, hp, hu⟩ := h
  rw [starts_iff_of_codePoints hp, CodePoint.isLower_eq_false_of_isUpper hu]
  exact Bool.false_ne_true

/-- The names that start in neither case are the empty one and those with an uncased start. -/
theorem eq_nil_or_startsUncased_iff (name : Text)
    : name = [] ∨ StartsUncased name
      ↔ ¬ (Starts CodePoint.isUpper name ∨ Starts CodePoint.isLower name) := by
  cases hp : name.codePoints with
  | nil =>
      refine iff_of_true (Or.inl (Text.codePoints_eq_nil_iff.mp hp)) ?_
      exact not_or.mpr
        ⟨not_starts_of_codePoints_eq_nil hp, not_starts_of_codePoints_eq_nil hp⟩
  | cons first rest =>
      have hne : name ≠ [] := by
        intro he
        simp [Text.codePoints_eq_nil_iff.mpr he] at hp
      simp [StartsUncased, starts_iff_of_codePoints hp, hne]

/-- Both forms of camel case have the general objection only to a name without a cased start:
any other start is right for one of them and a fault of its own for the other.
-/
theorem camelFault_both_iff (name : Text)
    : CamelFault .upper name .camelCase ∧ CamelFault .lower name .camelCase
      ↔ name = [] ∨ StartsUncased name := by
  constructor
  · intro h
    obtain ⟨hu, hl⟩ := h
    rcases hu with he | hs | ⟨⟨-, hu⟩ | ⟨wrong, -⟩, -⟩
    · exact Or.inl he
    · exact Or.inr hs
    · rcases hl with he | hs | ⟨⟨wrong, -⟩ | ⟨-, hl⟩, -⟩
      · exact Or.inl he
      · exact Or.inr hs
      · cases wrong
      · exact (not_starts_isLower_of_starts_isUpper hu hl).elim
    · cases wrong
  · intro h
    rcases h with he | hs
    · exact ⟨Or.inl he, Or.inl he⟩
    · exact ⟨Or.inr (Or.inl hs), Or.inr (Or.inl hs)⟩

end Name

namespace Convention

open Name

/-- Lower camel case shares no name with the other two conventions. Those share the names that
start in upper case and go on with upper-case letters, decimal digits and underscores, without
two upper-case letters or two underscores as neighbours. Both forms of camel case have the
general objection exactly to the names without a cased start, and for every other name one of
them objects to its start.
-/
theorem separate_names (name : Text)
    : ¬ (lowerCamelCase.advice? name = none ∧ upperCamelCase.advice? name = none)
      ∧ ¬ (lowerCamelCase.advice? name = none ∧ allCapsUnderscore.advice? name = none)
      ∧ (upperCamelCase.advice? name = none ∧ allCapsUnderscore.advice? name = none
          ↔ ∃ first rest,
              name.codePoints = first :: rest
              ∧ first.isUpper = true
              ∧ (∀ point ∈ rest,
                  point.isUpper = true ∨ point.isDigit = true ∨ point = CodePoint.underscore)
              ∧ ¬ Adjacent CodePoint.isUpper name.codePoints
              ∧ ¬ Adjacent (· == CodePoint.underscore) name.codePoints)
      ∧ (upperCamelCase.advice? name = some .camelCase
            ∧ lowerCamelCase.advice? name = some .camelCase
          ↔ name = [] ∨ StartsUncased name)
      ∧ (upperCamelCase.advice? name = some .initialUpper
            ∨ lowerCamelCase.advice? name = some .initialLower
          ↔ ¬ (name = [] ∨ StartsUncased name)) := by
  simp only [advice?, camelCase_eq_none_iff, allCaps_eq_none_iff, camelCase_eq_some_iff]
  refine ⟨?_, ?_, ?_, camelFault_both_iff name, ?_⟩
  · intro h
    exact not_starts_isLower_of_starts_isUpper h.2.1 h.1.1
  · intro h
    exact not_starts_isLower_of_starts_isUpper h.2.starts h.1.1
  · constructor
    · intro h
      obtain ⟨⟨-, hn⟩, first, rest, hp, hu, hm, ha⟩ := h
      exact ⟨first, rest, hp, hu, hm, hn, ha⟩
    · intro h
      obtain ⟨first, rest, hp, hu, hm, hn, ha⟩ := h
      exact ⟨⟨⟨first, rest, hp, hu⟩, hn⟩, first, rest, hp, hu, hm, ha⟩
  · rw [eq_nil_or_startsUncased_iff, Classical.not_not, or_comm]
    exact or_congr (and_iff_right rfl) (and_iff_right rfl)

/-- A digit or an underscore between its upper-case letters keeps a name in both conventions. -/
example
    : upperCamelCase.advice? (text "A1_B") = none
      ∧ allCapsUnderscore.advice? (text "A1_B") = none
      ∧ lowerCamelCase.advice? (text "A1_B") = some .initialLower := by
  decide +kernel

end Convention

end NamingAdvice
