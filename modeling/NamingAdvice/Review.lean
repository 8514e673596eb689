import NamingAdvice.Clock
import NamingAdvice.Declaration.Reader
import NamingAdvice.Survey

/-! A review reads a forest from a JSON value and surveys it. Where the value is no forest
nothing is surveyed, and the review lists what is wrong instead.
-/

namespace NamingAdvice

/-- Something wrong with the input, as it is reported. -/
structure InputError where
  code : Text
  path : Text
  message : Text
  hint : Option Text
deriving DecidableEq, Repr

def InputError.ofIssue (issue : Issue) : InputError :=
  ⟨text "SCHEMA_ERROR", issue.path, issue.cause.message, none⟩

structure Review where
  /-- Whether the input is a forest; advisories do not change this. -/
  ok : Bool
  advisories : List Advisory
  errors : List InputError
  /-- How long the review took, in milliseconds. -/
  elapsed : Int

namespace Review

/-- Keeps an advisory, the latest first, and hands it on. -/
def collect {m : Type → Type} [Monad m] (sink : Advisory → m Unit) (advisory : Advisory)
    : StateT (List Advisory) m Unit := do
  modify (advisory :: ·)
  sink advisory

/-- The advisories of an input, each handed to the sink when it is found, or the issues. -/
def examine {m : Type → Type} [Monad m] (sink : Advisory → m Unit) (input : Option Json)
    : m (Except (List Issue) (List Advisory)) :=
  match Declaration.read input with
  | .error issues => pure (.error issues)
  | .ok forest => do
      let (_, found) ← (survey (collect sink) [] forest).run []
      pure (.ok found.reverse)

/-- The review with given findings. -/
def ofFindings (elapsed : Int) : Except (List Issue) (List Advisory) → Review
  | .ok advisories => ⟨true, advisories, [], elapsed⟩
  | .error issues => ⟨false, [], issues.map InputError.ofIssue, elapsed⟩

end Review

/-- Reviews an input, with a sink that is told of every advisory. -/
def review {m : Type → Type} [Monad m] (sink : Advisory → m Unit) (clock : Clock)
    (input : Option Json)
    : m Review := do
  let findings ← Review.examine sink input
  pure (Review.ofFindings clock.elapsed findings)

/-- Reviews an input for nobody else to hear. -/
def quietReview (clock : Clock) (input : Option Json) : Review :=
  Id.run (review (fun _ => pure ()) clock input)

end NamingAdvice
