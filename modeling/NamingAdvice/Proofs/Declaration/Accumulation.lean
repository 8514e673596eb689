import NamingAdvice.Declaration.Reader

/-! Results that carry issues. A result is honest if its value is lacking exactly when some
issue is more than a repeated modifier; every way to combine results keeps them honest, so the
gate in front of the check for repeated modifiers is the absence of such issues.
-/

namespace NamingAdvice

/-- Whether an issue is about a repeated modifier only. -/
def Issue.Cause.isRepeat : Issue.Cause → Bool
  | .repeatedModifier _ => true
  | _ => false

namespace Validated

variable {α β : Type}

@[simp]
theorem value?_pure (value : α) : (pure value : Validated α).value? = some value := rfl

@[simp]
theorem issues_pure (value : α) : (pure value : Validated α).issues = [] := rfl

@[simp]
theorem value?_map (f : α → β) (result : Validated α)
    : (f <$> result).value? = result.value?.map f := rfl

@[simp]
theorem issues_map (f : α → β) (result : Validated α) : (f <$> result).issues = result.issues :=
  rfl

@[simp]
theorem value?_seq (function : Validated (α → β)) (argument : Validated α)
    : (function <*> argument).value?
      = function.value?.bind (fun apply => argument.value?.map apply) := rfl

@[simp]
theorem issues_seq (function : Validated (α → β)) (argument : Validated α)
    : (function <*> argument).issues = function.issues ++ argument.issues := rfl

@[simp]
theorem value?_refuse (cause : Issue.Cause) : (refuse cause : Validated α).value? = none := rfl

@[simp]
theorem issues_refuse (cause : Issue.Cause)
    : (refuse cause : Validated α).issues = [⟨cause, []⟩] := rfl

@[simp]
theorem value?_under (step : Step) (result : Validated α)
    : (result.under step).value? = result.value? := rfl

@[simp]
theorem issues_under (step : Step) (result : Validated α)
    : (result.under step).issues = result.issues.map (·.under step) := rfl

@[simp]
theorem value?_also (check : α → List Issue) (result : Validated α)
    : (result.also check).value? = result.value? := rfl

@[simp]
theorem issues_also (check : α → List Issue) (result : Validated α)
    : (result.also check).issues = result.issues ++ (result.value?.map check).getD [] := rfl

/-- What is there needs no default. -/
theorem map_getD_under (default : α) (step : Step) (result : Validated α)
    : (Option.getD · default) <$> (some <$> result).under step = result.under step := by
  rcases result with ⟨_ | value, issues⟩ <;> rfl

/-- The issues of a result seen from one step further out start with that step. -/
theorem mem_issues_under_iff {step : Step} {result : Validated α} {cause : Issue.Cause}
    {place : List Step}
    : ⟨cause, place⟩ ∈ (result.under step).issues
      ↔ ∃ rest, place = step :: rest ∧ ⟨cause, rest⟩ ∈ result.issues := by
  rw [issues_under, List.mem_map]
  constructor
  · intro h
    obtain ⟨⟨other, rest⟩, hm, he⟩ := h
    obtain ⟨rfl, rfl⟩ : other = cause ∧ step :: rest = place := by
      simpa [Issue.under] using he
    exact ⟨rest, rfl, hm⟩
  · intro h
    obtain ⟨rest, rfl, hm⟩ := h
    exact ⟨⟨cause, rest⟩, hm, rfl⟩

theorem toExcept_eq_ok_iff {result : Validated α} {value : α}
    : result.toExcept = .ok value ↔ result.value? = some value ∧ result.issues = [] := by
  rcases result with ⟨_ | found, _ | ⟨issue, issues⟩⟩ <;> simp [toExcept]

theorem toExcept_eq_error_iff {result : Validated α} {issues : List Issue}
    : result.toExcept = .error issues
      ↔ result.issues = issues ∧ (result.value? = none ∨ result.issues ≠ []) := by
  rcases result with ⟨_ | found, _ | ⟨issue, rest⟩⟩ <;> simp [toExcept]

-----------------------------------------------------------------------------------------
-- Honest results
-----------------------------------------------------------------------------------------

/-- The value is lacking exactly if an issue is more than a repeated modifier. -/
def Honest (result : Validated α) : Prop :=
  result.value? = none ↔ ∃ issue ∈ result.issues, issue.cause.isRepeat = false

theorem honest_pure (value : α) : Honest (pure value : Validated α) := by
  simp [Honest]

theorem honest_refuse {cause : Issue.Cause} (h : cause.isRepeat = false)
    : Honest (refuse cause : Validated α) := by
  simp [Honest, h]

theorem Honest.map {result : Validated α} (h : Honest result) (f : α → β)
    : Honest (f <$> result) := by
  simpa [Honest] using h

theorem Honest.seq {function : Validated (α → β)} {argument : Validated α}
    (hf : Honest function) (ha : Honest argument)
    : Honest (function <*> argument) := by
  simp only [Honest, value?_seq, issues_seq, List.mem_append, or_and_right, exists_or] at *
  rw [← hf, ← ha]
  cases function.value? <;> simp

theorem Honest.under {result : Validated α} (h : Honest result) (step : Step)
    : Honest (result.under step) := by
  refine h.trans ⟨?_, ?_⟩
  · intro given
    obtain ⟨issue, hm, hn⟩ := given
    exact ⟨issue.under step, List.mem_map.mpr ⟨issue, hm, rfl⟩, hn⟩
  · intro given
    obtain ⟨_, hm, hn⟩ := given
    obtain ⟨issue, hi, rfl⟩ := List.mem_map.mp hm
    exact ⟨issue, hi, hn⟩

/-- A check that finds repeated modifiers only does not change whether there is a value. -/
theorem Honest.also {result : Validated α} (h : Honest result) {check : α → List Issue}
    (hc : ∀ value, ∀ issue ∈ check value, issue.cause.isRepeat = true)
    : Honest (result.also check) := by
  simp only [Honest, value?_also, issues_also, List.mem_append, or_and_right, exists_or] at *
  rw [h]
  constructor
  · exact Or.inl
  · intro given
    rcases given with hm | ⟨issue, hm, hn⟩
    · exact hm
    · cases hv : result.value? with
      | none => simp [hv] at hm
      | some value =>
          have hr := hc value issue (by simpa [hv] using hm)
          rw [hr] at hn
          contradiction

/-- An honest result fails with its issues, and never without one. -/
theorem Honest.toExcept_eq_error_iff {result : Validated α} (h : Honest result)
    {issues : List Issue}
    : result.toExcept = .error issues ↔ issues = result.issues ∧ result.issues ≠ [] := by
  have reported : result.value? = none → result.issues ≠ [] := by
    intro hv
    obtain ⟨issue, hm, -⟩ := h.mp hv
    exact List.ne_nil_of_mem hm
  rw [Validated.toExcept_eq_error_iff]
  constructor
  · intro given
    rcases given with ⟨rfl, hv | hn⟩
    · exact ⟨rfl, reported hv⟩
    · exact ⟨rfl, hn⟩
  · intro given
    obtain ⟨rfl, hn⟩ := given
    exact ⟨rfl, .inr hn⟩

end Validated

end NamingAdvice
