import NamingAdvice.Proofs.Survey.Listing

/-! Sinks that may throw. A sink keeps a state of its own and answers every call or throws. What
it is called with can be written down from outside; a list of advisories that is handed to it
arrives whole, or up to the first call that it throws at.
-/

namespace NamingAdvice

/-- A sink that keeps a state of its own and may throw. -/
abbrev Sink (ε σ : Type) := Advisory → ExceptT ε (StateM σ) Unit

namespace Sink

variable {ε σ : Type}

/-- What a sink says to a call in a state, and the state that it is left in. -/
def answer (sink : Sink ε σ) (advisory : Advisory) (state : σ) : Except ε Unit × σ :=
  (sink advisory).run.run state

/-- The same sink, with every call written down before it is answered. -/
def heard (sink : Sink ε σ) : Sink ε (List Advisory × σ) :=
  fun advisory => ExceptT.mk (fun given =>
    ((sink.answer advisory given.2).1, given.1 ++ [advisory],
      (sink.answer advisory given.2).2))

/-- The outcome of a program that is given a sink, the calls that the sink heard, in order, and
the state that it is left in.
-/
def observe {α : Type} (sink : Sink ε σ)
    (program : Sink ε (List Advisory × σ) → ExceptT ε (StateM (List Advisory × σ)) α)
    (state : σ)
    : Except ε α × List Advisory × σ :=
  (program sink.heard).run.run ([], state)

/-- Of the calls of a list, made one after the other from a state, a sink answers those before
the `k`-th and throws at the `k`-th, if there are that many. Calls are counted from one.
-/
def ThrowsOnCall (sink : Sink ε σ) (error : ε) : Nat → List Advisory → σ → Prop
  | 0, _, _ => False
  | _, [], _ => True
  | 1, advisory :: _, state => (sink.answer advisory state).1 = .error error
  | k + 2, advisory :: rest, state =>
      (sink.answer advisory state).1 = .ok ()
      ∧ sink.ThrowsOnCall error (k + 1) rest (sink.answer advisory state).2

/-- A sink answers all calls of a list, made one after the other from a state. -/
def AnswersAll (sink : Sink ε σ) : List Advisory → σ → Prop
  | [], _ => True
  | advisory :: rest, state =>
      (sink.answer advisory state).1 = .ok ()
      ∧ sink.AnswersAll rest (sink.answer advisory state).2

/-- A sink that answers whatever it is called with. -/
def NeverThrows (sink : Sink ε σ) : Prop :=
  ∀ advisory state, (sink.answer advisory state).1 = .ok ()

/-- What becomes of advisories that a program emits to a sink before it gives a value. If the
sink throws on one of them, the exception is the outcome and the sink has heard the advisories
up to that one; otherwise it has heard them all and the value is the outcome.
-/
structure Delivered {α : Type} (sink : Sink ε σ) (state : σ) (emitted : List Advisory)
    (value : α) (observed : Except ε α × List Advisory × σ)
    : Prop where
  interrupted
    : ∀ k error, sink.ThrowsOnCall error k emitted state
        → k ≤ emitted.length
        → observed.1 = .error error ∧ observed.2.1 = emitted.take k
  completed
    : ∀ k error, sink.ThrowsOnCall error k emitted state
        → emitted.length < k
        → observed.1 = .ok value ∧ observed.2.1 = emitted
  unfailing : sink.NeverThrows → observed.1 = .ok value ∧ observed.2.1 = emitted

-----------------------------------------------------------------------------------------
-- Single calls
-----------------------------------------------------------------------------------------

theorem run_bind_of_ok {α β : Type} {first : ExceptT ε (StateM σ) α} {value : α}
    {state next : σ} (h : first.run.run state = (.ok value, next))
    (rest : α → ExceptT ε (StateM σ) β)
    : (first >>= rest).run.run state = (rest value).run.run next := by
  rw [ExceptT.run_bind, StateT.run_bind, h]
  rfl

theorem run_bind_of_error {α β : Type} {first : ExceptT ε (StateM σ) α} {error : ε}
    {state next : σ} (h : first.run.run state = (.error error, next))
    (rest : α → ExceptT ε (StateM σ) β)
    : (first >>= rest).run.run state = (.error error, next) := by
  rw [ExceptT.run_bind, StateT.run_bind, h]
  rfl

theorem run_heard (sink : Sink ε σ) (advisory : Advisory) (earlier : List Advisory)
    (state : σ)
    : (sink.heard advisory).run.run (earlier, state)
      = ((sink.answer advisory state).1, earlier ++ [advisory],
          (sink.answer advisory state).2) := rfl

theorem NeverThrows.answersAll {sink : Sink ε σ} (h : sink.NeverThrows)
    (calls : List Advisory) (state : σ)
    : sink.AnswersAll calls state := by
  induction calls generalizing state with
  | nil => trivial
  | cons advisory rest ih => exact ⟨h advisory state, ih _⟩

/-- A sink that throws later than the calls of a list answers all of them. -/
theorem ThrowsOnCall.answersAll {sink : Sink ε σ} {error : ε} {k : Nat}
    {calls : List Advisory} {state : σ} (h : sink.ThrowsOnCall error k calls state)
    (few : calls.length < k)
    : sink.AnswersAll calls state := by
  induction calls generalizing k state with
  | nil => trivial
  | cons advisory rest ih =>
      rw [List.length_cons] at few
      obtain ⟨less, rfl⟩ : ∃ less, k = less + 2 := ⟨k - 2, by omega⟩
      obtain ⟨answered, later⟩ := h
      exact ⟨answered, ih later (by omega)⟩

-----------------------------------------------------------------------------------------
-- Lists of calls
-----------------------------------------------------------------------------------------

/-- Calls that are all answered are all heard, by induction on the calls. -/
theorem run_forM_of_answersAll {sink : Sink ε σ} {calls : List Advisory} {state : σ}
    (h : sink.AnswersAll calls state) (earlier : List Advisory)
    : ∃ next,
        (forM calls sink.heard).run.run (earlier, state) = (.ok (), earlier ++ calls, next) := by
  induction calls generalizing earlier state with
  | nil => exact ⟨state, by rw [List.append_nil]; rfl⟩
  | cons advisory rest ih =>
      obtain ⟨answered, later⟩ := h
      obtain ⟨next, hn⟩ := ih later (earlier ++ [advisory])
      have first := sink.run_heard advisory earlier state
      rw [answered] at first
      refine ⟨next, ?_⟩
      rw [List.forM_cons, run_bind_of_ok first, hn, List.append_assoc]
      rfl

/-- Calls are heard up to the one that the sink throws at, by induction on the calls; nothing
after it is called.
-/
theorem run_forM_of_throwsOnCall {sink : Sink ε σ} {error : ε} {k : Nat}
    {calls : List Advisory} {state : σ} (h : sink.ThrowsOnCall error k calls state)
    (enough : k ≤ calls.length) (earlier : List Advisory)
    : ∃ next,
        (forM calls sink.heard).run.run (earlier, state)
          = (.error error, earlier ++ calls.take k, next) := by
  induction calls generalizing k earlier state with
  | nil =>
      obtain rfl : k = 0 := by simpa using enough
      exact h.elim
  | cons advisory rest ih =>
      have first := sink.run_heard advisory earlier state
      match k with
      | 0 => exact h.elim
      | 1 =>
          have thrown : (sink.answer advisory state).1 = .error error := h
          rw [thrown] at first
          exact ⟨_, by rw [List.forM_cons, run_bind_of_error first]; rfl⟩
      | k + 2 =>
          obtain ⟨answered, later⟩ := h
          rw [List.length_cons] at enough
          obtain ⟨next, hn⟩ := ih later (by omega) (earlier ++ [advisory])
          rw [answered] at first
          refine ⟨next, ?_⟩
          rw [List.forM_cons, run_bind_of_ok first, hn, List.append_assoc]
          rfl

/-- A sink answers all calls of a list, or there is a first one that it throws at. -/
theorem answersAll_or_throwsOnCall (sink : Sink ε σ) (calls : List Advisory) (state : σ)
    : sink.AnswersAll calls state
      ∨ ∃ k error, k ≤ calls.length ∧ sink.ThrowsOnCall error k calls state := by
  induction calls generalizing state with
  | nil => exact .inl trivial
  | cons advisory rest ih =>
      cases answered : (sink.answer advisory state).1 with
      | error error => exact .inr ⟨1, error, by simp, answered⟩
      | ok =>
          rcases ih (sink.answer advisory state).2 with all | ⟨k, error, enough, thrown⟩
          · exact .inl ⟨answered, all⟩
          · cases k with
            | zero => exact thrown.elim
            | succ k => exact .inr ⟨k + 2, error, by simpa using enough, answered, thrown⟩

/-- Of a list that is handed to it, a sink hears the beginning at most. -/
theorem heard_forM {α : Type} (sink : Sink ε σ) (state : σ) (emitted : List Advisory)
    (value : α)
    : (sink.observe (fun told => forM emitted told >>= fun _ => pure value) state).2.1
      <+: emitted := by
  rcases sink.answersAll_or_throwsOnCall emitted state with all | ⟨k, error, enough, thrown⟩
  · obtain ⟨next, hn⟩ := run_forM_of_answersAll all []
    rw [observe, run_bind_of_ok hn]
    exact List.prefix_refl emitted
  · obtain ⟨next, hn⟩ := run_forM_of_throwsOnCall thrown enough []
    rw [observe, run_bind_of_error hn]
    exact List.take_prefix k emitted

/-- A program that hands a list to its sink and then gives a value delivers the list. -/
theorem delivered_forM {α : Type} (sink : Sink ε σ) (state : σ) (emitted : List Advisory)
    (value : α)
    : sink.Delivered state emitted value
        (sink.observe (fun told => forM emitted told >>= fun _ => pure value) state) := by
  have answered (h : sink.AnswersAll emitted state)
      : (sink.observe (fun told => forM emitted told >>= fun _ => pure value) state).1
          = .ok value
        ∧ (sink.observe (fun told => forM emitted told >>= fun _ => pure value) state).2.1
          = emitted := by
    obtain ⟨next, hn⟩ := run_forM_of_answersAll h []
    rw [observe, run_bind_of_ok hn]
    exact ⟨rfl, rfl⟩
  refine ⟨?_, ?_, ?_⟩
  · intro k error thrown enough
    obtain ⟨next, hn⟩ := run_forM_of_throwsOnCall thrown enough []
    rw [observe, run_bind_of_error hn]
    exact ⟨rfl, rfl⟩
  · intro k error thrown few
    exact answered (thrown.answersAll few)
  · intro never
    exact answered (never.answersAll emitted state)

end Sink

namespace Survey

-----------------------------------------------------------------------------------------
-- The recording sink
-----------------------------------------------------------------------------------------

theorem answer_recorder (limit : Option Nat) (advisory : Advisory) (kept : List Advisory)
    : Sink.answer (recorder limit) advisory kept
      = (if some (kept.length + 1) == limit then .error .stopped else .ok (),
          advisory :: kept) := by
  have program : Sink.answer (recorder limit) advisory kept
      = (if some (advisory :: kept).length == limit then throw .stopped else pure ()
          : ExceptT Stopped (StateM (List Advisory)) Unit).run.run (advisory :: kept) := rfl
  rw [program, List.length_cons]
  split <;> rfl

/-- The recording sink throws at its limit, whatever it is called with: what it has kept counts
the calls before.
-/
theorem recorder_throwsOnCall (k : Nat) (calls kept : List Advisory)
    : Sink.ThrowsOnCall (recorder (some (kept.length + (k + 1)))) .stopped (k + 1) calls
        kept := by
  induction calls generalizing k kept with
  | nil => trivial
  | cons advisory rest ih =>
      cases k with
      | zero =>
          rw [Sink.ThrowsOnCall, answer_recorder, Nat.zero_add, if_pos (beq_self_eq_true _)]
      | succ k =>
          have early : (some (kept.length + 1) == some (kept.length + (k + 1 + 1))) = false := by
            simp
          have counted : kept.length + (k + 1 + 1)
              = (advisory :: kept).length + (k + 1) := by
            rw [List.length_cons]
            omega
          rw [Sink.ThrowsOnCall, answer_recorder, early]
          refine ⟨rfl, ?_⟩
          rw [counted]
          exact ih k (advisory :: kept)

end Survey

end NamingAdvice
