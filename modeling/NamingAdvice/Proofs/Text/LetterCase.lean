import NamingAdvice.Text.CharacterClass

/-! Letter case is unambiguous: no code point is both upper and lower case, and no decimal digit is
either. Membership in a table ranges over all numbers, so the tables are compared run by run with a
test that needs no more than the ends of two runs and their parity.
-/

namespace NamingAdvice

namespace CharacterTable

/-- Whether all numbers of a run have the parity of the first one. -/
def Run.keepsParity (run : Run) : Bool :=
  run.stride == 2 || run.first == run.last

/-- Two runs that lie one after the other, or that keep different parities. -/
def Run.apart (left right : Run) : Bool :=
  -- The comparisons are the ones the kernel computes on numerals; they run for every pair.
  left.last.blt right.first || right.last.blt left.first
  || (left.keepsParity && right.keepsParity && left.first % 2 != right.first % 2)

/-- Whether every run of a table is apart from every run of another. -/
def apart (left right : List Run) : Bool :=
  left.all (fun run => right.all run.apart)

theorem Run.contains_bounds {run : Run} {value : Nat} (h : run.contains value = true)
    : run.first ≤ value ∧ value ≤ run.last ∧ (value - run.first) % run.stride = 0 := by
  simpa only [Run.contains, Bool.and_eq_true, decide_eq_true_eq, beq_iff_eq, and_assoc] using h

theorem Run.parity_of_contains {run : Run} {value : Nat} (hp : run.keepsParity = true)
    (h : run.contains value = true)
    : value % 2 = run.first % 2 := by
  obtain ⟨hf, hl, hs⟩ := contains_bounds h
  simp only [Run.keepsParity, Bool.or_eq_true, beq_iff_eq] at hp
  rcases hp with hp | hp
  · rw [hp] at hs
    omega
  · omega

/-- Runs that are apart share no number, by comparing ends or parities. -/
theorem Run.not_contains_of_apart {left right : Run} {value : Nat}
    (h : left.apart right = true) (hl : left.contains value = true)
    : right.contains value = false := by
  rw [Bool.eq_false_iff]
  intro hr
  obtain ⟨hlf, hll, -⟩ := contains_bounds hl
  obtain ⟨hrf, hrl, -⟩ := contains_bounds hr
  simp only [Run.apart, Bool.or_eq_true, Bool.and_eq_true, Nat.blt_eq, bne_iff_ne] at h
  rcases h with (h | h) | ⟨⟨hlp, hrp⟩, hne⟩
  · omega
  · omega
  · exact hne ((parity_of_contains hlp hl).symm.trans (parity_of_contains hrp hr))

/-- Tables that are apart share no number, by the runs that would hold it. -/
theorem not_any_contains_of_apart {left right : List Run} {value : Nat}
    (h : apart left right = true) (hl : left.any (·.contains value) = true)
    : right.any (·.contains value) = false := by
  obtain ⟨run, hm, hc⟩ := List.any_eq_true.mp hl
  rw [List.any_eq_false]
  intro other ho
  have ha := List.all_eq_true.mp (List.all_eq_true.mp h run hm) other ho
  simp [Run.not_contains_of_apart ha hc]

theorem uppercase_apart_lowercase : apart uppercase lowercase = true := by
  decide +kernel

theorem uppercase_apart_decimalDigit : apart uppercase decimalDigit = true := by
  decide +kernel

theorem lowercase_apart_decimalDigit : apart lowercase decimalDigit = true := by
  decide +kernel

end CharacterTable

namespace CodePoint

theorem isLower_eq_false_of_isUpper {point : CodePoint} (h : point.isUpper = true)
    : point.isLower = false :=
  CharacterTable.not_any_contains_of_apart CharacterTable.uppercase_apart_lowercase h

theorem isUpper_eq_false_of_isLower {point : CodePoint} (h : point.isLower = true)
    : point.isUpper = false := by
  rw [Bool.eq_false_iff]
  intro hu
  simp [isLower_eq_false_of_isUpper hu] at h

end CodePoint

end NamingAdvice
