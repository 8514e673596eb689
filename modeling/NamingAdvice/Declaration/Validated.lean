import NamingAdvice.Declaration.Issue

/-! Reading that goes on after an issue. A result has all issues that came up, in order, and
a value unless some part of it could not be made out. Results combine field by field, so
nothing is read twice and no issue is lost.
-/

namespace NamingAdvice

structure Validated (α : Type) where
  /-- What was read, if every part of it could be made out. -/
  value? : Option α
  issues : List Issue

namespace Validated

instance : Applicative Validated where
  pure value := ⟨some value, []⟩
  seq function argument :=
    let rest := argument ()
    ⟨function.value?.bind (fun apply => rest.value?.map apply), function.issues ++ rest.issues⟩

/-- A value that could not be made out. -/
def refuse {α : Type} (cause : Issue.Cause) : Validated α :=
  ⟨none, [⟨cause, []⟩]⟩

/-- A result seen from one step further out. -/
def under {α : Type} (step : Step) (result : Validated α) : Validated α :=
  { result with issues := result.issues.map (·.under step) }

/-- Checks a value that could be made out, whatever issues it came with. -/
def also {α : Type} (check : α → List Issue) (result : Validated α) : Validated α :=
  { result with issues := result.issues ++ (result.value?.map check).getD [] }

/-- The value, if there is no issue at all. -/
def toExcept {α : Type} (result : Validated α) : Except (List Issue) α :=
  match result.value?, result.issues with
  | some value, [] => .ok value
  | _, issues => .error issues

end Validated

end NamingAdvice
