import NamingAdvice.Declaration.Writer
import NamingAdvice.Proofs.Survey.Sink

/-! What a sink hears of a review. With any sink a review hands on the advisories that it would
return to nobody else and then returns them, so a sink that throws cuts this list short and
changes nothing else. A survey remembers nothing of the surveys before it, interrupted or not.
-/

namespace NamingAdvice

-----------------------------------------------------------------------------------------
-- A review hands on what it returns
-----------------------------------------------------------------------------------------

/-- On a forest, a review hands on the advisories of the forest and returns them. -/
theorem review_of_ok {m : Type → Type} [Monad m] [LawfulMonad m] (sink : Advisory → m Unit)
    (clock : Clock) {input : Option Json} {forest : List Declaration}
    (h : Declaration.read input = .ok forest)
    : review sink clock input
      = forM (Survey.advisories [] forest) sink
          >>= fun _ => pure ⟨true, Survey.advisories [] forest, [], clock.elapsed⟩ := by
  simp only [review, Review.examine, h, Survey.survey_eq_forM, Survey.run_forM_collect,
    bind_assoc, pure_bind, List.append_nil, List.reverse_reverse, Review.ofFindings]

/-- On anything else, a review hands on nothing. -/
theorem review_of_error {m : Type → Type} [Monad m] [LawfulMonad m]
    (sink : Advisory → m Unit) (clock : Clock) {input : Option Json} {issues : List Issue}
    (h : Declaration.read input = .error issues)
    : review sink clock input
      = pure ⟨false, [], issues.map InputError.ofIssue, clock.elapsed⟩ := by
  simp only [review, Review.examine, h, pure_bind, Review.ofFindings]

theorem quietReview_of_ok (clock : Clock) {input : Option Json} {forest : List Declaration}
    (h : Declaration.read input = .ok forest)
    : quietReview clock input
      = ⟨true, Survey.advisories [] forest, [], clock.elapsed⟩ := by
  rw [quietReview, review_of_ok _ clock h]
  rfl

theorem quietReview_of_error (clock : Clock) {input : Option Json} {issues : List Issue}
    (h : Declaration.read input = .error issues)
    : quietReview clock input
      = ⟨false, [], issues.map InputError.ofIssue, clock.elapsed⟩ := by
  rw [quietReview, review_of_error _ clock h]
  rfl

/-- Whatever the effects of the sink, a review hands on what it would return to nobody else, in
order and each once, and then returns the same.
-/
theorem review_eq_forM {m : Type → Type} [Monad m] [LawfulMonad m] (sink : Advisory → m Unit)
    (clock : Clock) (input : Option Json)
    : review sink clock input
      = forM (quietReview clock input).advisories sink
          >>= fun _ => pure (quietReview clock input) := by
  cases h : Declaration.read input with
  | ok forest => rw [review_of_ok sink clock h, quietReview_of_ok clock h]
  | error issues =>
      rw [review_of_error sink clock h, quietReview_of_error clock h, List.forM_nil, pure_bind]

/-- A review depends on what its input is read as, and on nothing else in it. -/
theorem review_congr {m : Type → Type} [Monad m] (sink : Advisory → m Unit) (clock : Clock)
    {left right : Option Json} (h : Declaration.read left = Declaration.read right)
    : review sink clock left = review sink clock right := by
  rw [review, review, Review.examine, Review.examine, h]

-----------------------------------------------------------------------------------------
-- One survey after another
-----------------------------------------------------------------------------------------

namespace Survey

variable {ε σ : Type}

/-- A survey in a sequence, with the sink that it is given. -/
structure Call (ε σ : Type) where
  sink : Sink ε σ
  base : Text
  forest : List Declaration

/-- What comes of a survey in a sequence, from a state of the sinks on. -/
def Call.observe (call : Call ε σ) (state : σ) : Except ε Unit × List Advisory × σ :=
  call.sink.observe (survey · call.base call.forest) state

/-- What comes of surveys one after the other. An exception ends its own survey; the next one
starts from the state that the sink was left in.
-/
def transcript : List (Call ε σ) → σ → List (Except ε Unit × List Advisory × σ)
  | [], _ => []
  | call :: rest, state => call.observe state :: transcript rest (call.observe state).2.2

/-- The state of the sinks after a sequence of surveys. -/
def stateAfter (calls : List (Call ε σ)) (state : σ) : σ :=
  calls.foldl (fun state call => (call.observe state).2.2) state

theorem getElem?_transcript (earlier later : List (Call ε σ)) (call : Call ε σ) (state : σ)
    : (transcript (earlier ++ call :: later) state)[earlier.length]?
      = some (call.observe (stateAfter earlier state)) := by
  induction earlier generalizing state with
  | nil => rfl
  | cons first rest ih => exact ih (first.observe state).2.2

theorem delivered_survey (sink : Sink ε σ) (state : σ) (base : Text)
    (forest : List Declaration)
    : sink.Delivered state (advisories base forest) ()
        (sink.observe (survey · base forest) state) := by
  have program : (fun told : Sink ε (List Advisory × σ) => survey told base forest)
      = fun told => forM (advisories base forest) told >>= fun _ => pure () := by
    funext told
    rw [survey_eq_forM, bind_pure_unit]
  rw [program]
  exact sink.delivered_forM state _ ()

end Survey

namespace Review

variable {ε σ : Type}

theorem observe_review (sink : Sink ε σ) (state : σ) (clock : Clock) (input : Option Json)
    : sink.observe (review · clock input) state
      = sink.observe
          (fun told =>
            forM (quietReview clock input).advisories told
              >>= fun _ => pure (quietReview clock input))
          state := by
  have program : (fun told : Sink ε (List Advisory × σ) => review told clock input)
      = fun told =>
          forM (quietReview clock input).advisories told
            >>= fun _ => pure (quietReview clock input) :=
    funext (fun told => review_eq_forM told clock input)
  rw [program]

theorem delivered_review (sink : Sink ε σ) (state : σ) (clock : Clock) (input : Option Json)
    : sink.Delivered state (quietReview clock input).advisories (quietReview clock input)
        (sink.observe (review · clock input) state) := by
  rw [observe_review]
  exact sink.delivered_forM state _ _

/-- A review of an input returns an advisory, or hands it to a sink, be it one that throws. -/
def Emitted (input : Option Json) (advisory : Advisory) : Prop :=
  (∃ clock, advisory ∈ (quietReview clock input).advisories)
  ∨ ∃ (ε σ : Type) (sink : Sink ε σ) (state : σ) (clock : Clock),
      advisory ∈ (sink.observe (review · clock input) state).2.1

/-- Whatever a review emits is an advisory of the forest that it reads. -/
theorem Emitted.exists_forest {input : Option Json} {advisory : Advisory}
    (h : Emitted input advisory)
    : ∃ forest,
        Declaration.read input = .ok forest ∧ advisory ∈ Survey.advisories [] forest := by
  have returned : ∃ clock, advisory ∈ (quietReview clock input).advisories := by
    rcases h with returned | ⟨ε, σ, sink, state, clock, heard⟩
    · exact returned
    · rw [observe_review] at heard
      exact ⟨clock, (sink.heard_forM state _ _).subset heard⟩
  obtain ⟨clock, listed⟩ := returned
  cases hr : Declaration.read input with
  | ok forest =>
      rw [quietReview_of_ok clock hr] at listed
      exact ⟨forest, rfl, listed⟩
  | error issues =>
      rw [quietReview_of_error clock hr] at listed
      exact absurd listed List.not_mem_nil

theorem observe_review_of_not_ok (sink : Sink ε σ) (state : σ) {clock : Clock}
    {input : Option Json} (h : (quietReview clock input).ok = false)
    : sink.observe (review · clock input) state
      = (.ok (quietReview clock input), [], state) := by
  cases hr : Declaration.read input with
  | ok forest =>
      rw [quietReview_of_ok clock hr] at h
      contradiction
  | error issues =>
      rw [Sink.observe, review_of_error _ clock hr, quietReview_of_error clock hr]
      rfl

/-- Interrupted surveys and reviews deliver an exact part of what they deliver otherwise. A
survey, and a review likewise, emits to any sink what it emits to a `quiet` one, up to the call
that the sink throws at; a review that is not interrupted returns what it returns without a
sink; an input that is refused calls no sink at all; and in a sequence of surveys each emits its
own advisories, whatever happened in those before.
-/
theorem delivery_exact {τ : Type} (quiet : Advisory → StateM τ Unit) (start : τ)
    (sink : Sink ε σ) (state : σ)
    : (∀ base forest,
        sink.Delivered state (Survey.received quiet base forest start) ()
          (sink.observe (survey · base forest) state))
      ∧ (∀ clock input,
          sink.Delivered state (quietReview clock input).advisories (quietReview clock input)
            (sink.observe (review · clock input) state))
      ∧ (∀ clock input forest,
          Declaration.read input = .ok forest
          → (quietReview clock input).ok = true
            ∧ (quietReview clock input).advisories
              = Survey.received quiet [] forest start)
      ∧ (∀ clock input,
          (quietReview clock input).ok = false
          → sink.observe (review · clock input) state
            = (.ok (quietReview clock input), [], state))
      ∧ ∀ (earlier later : List (Survey.Call ε σ)) (call : Survey.Call ε σ),
          ∃ observed,
            (Survey.transcript (earlier ++ call :: later) state)[earlier.length]?
              = some observed
            ∧ call.sink.Delivered (Survey.stateAfter earlier state)
                (Survey.received quiet call.base call.forest start) () observed := by
  refine ⟨?_, ?_, ?_, ?_, ?_⟩
  · intro base forest
    rw [Survey.received_eq]
    exact Survey.delivered_survey sink state base forest
  · intro clock input
    exact delivered_review sink state clock input
  · intro clock input forest h
    rw [Survey.received_eq, quietReview_of_ok clock h]
    exact ⟨rfl, rfl⟩
  · intro clock input h
    exact observe_review_of_not_ok sink state h
  · intro earlier later call
    refine ⟨_, Survey.getElem?_transcript earlier later call state, ?_⟩
    rw [Survey.received_eq]
    exact Survey.delivered_survey call.sink _ call.base call.forest

/-- A class in lower case, with a field in upper case and a method of its own name. -/
def parserClass : List Declaration :=
  [⟨⟨.classType, text "parser", [], none, none, false⟩,
    [⟨⟨.field, text "A", [], none, none, false⟩, []⟩,
      ⟨⟨.method, text "parser", [], none, none, false⟩, []⟩]⟩]

/-- A sink that throws on its second call hears two of the three advisories; written as a JSON
value the class is accepted; and an input that is not there calls no sink.
-/
theorem parserClass_delivery
    : (Sink.ThrowsOnCall (Survey.recorder (some 2)) .stopped 2
          (Survey.received (fun _ => pure ()) [] parserClass ()) []
        ∧ (Survey.received (fun _ => pure ()) [] parserClass ()).length = 3
        ∧ (Sink.observe (Survey.recorder (some 2)) (survey · [] parserClass) []).1
          = .error .stopped
        ∧ (Sink.observe (Survey.recorder (some 2)) (survey · [] parserClass) []).2.1
          = (Survey.received (fun _ => pure ()) [] parserClass ()).take 2)
      ∧ (∃ forest,
          Declaration.read (some (Declaration.forestToJson parserClass)) = .ok forest
          ∧ (quietReview ⟨0, []⟩ (some (Declaration.forestToJson parserClass))).advisories
            = Survey.received (fun _ => pure ()) [] forest ())
      ∧ (quietReview ⟨0, []⟩ none).ok = false
      ∧ Sink.observe (Survey.recorder (some 2)) (review · ⟨0, []⟩ none) []
        = (.ok (quietReview ⟨0, []⟩ none), [], []) := by
  have thrown : Sink.ThrowsOnCall (Survey.recorder (some 2)) .stopped 2
      (Survey.received (fun _ => pure ()) [] parserClass ()) [] :=
    Survey.recorder_throwsOnCall 1 _ []
  have three : (Survey.received (fun _ => pure ()) [] parserClass ()).length = 3 := by
    decide +kernel
  have accepted : (Declaration.read (some (Declaration.forestToJson parserClass))).isOk := by
    decide +kernel
  obtain ⟨surveyed, -, returned, refused, -⟩ :=
    delivery_exact (fun _ => pure ()) () (Survey.recorder (some 2)) []
  refine ⟨⟨thrown, three, ?_⟩, ?_, by decide +kernel, ?_⟩
  · exact (surveyed [] parserClass).interrupted 2 .stopped thrown (by omega)
  · cases h : Declaration.read (some (Declaration.forestToJson parserClass)) with
    | ok forest => exact ⟨forest, rfl, (returned ⟨0, []⟩ _ forest h).2⟩
    | error issues =>
        rw [h] at accepted
        contradiction
  · exact refused ⟨0, []⟩ none (by decide +kernel)

end Review

end NamingAdvice
