import NamingAdvice.Number.Whole

/-! A clock as the readings it will give, in milliseconds. Readings need not grow, and the
last one is given for ever. Readings and times are binary numbers, so very large ones are
rounded.
-/

namespace NamingAdvice

structure Clock where
  /-- The reading that comes next. -/
  now : Int
  /-- The readings after it. -/
  later : List Int
deriving DecidableEq, Repr

namespace Clock

/-- The clock after one reading. -/
def next (clock : Clock) : Clock :=
  match clock.later with
  | [] => clock
  | reading :: later => ⟨reading, later⟩

/-- The time between the next two readings. -/
def elapsed (clock : Clock) : Int :=
  Whole.shortest (Whole.nearest clock.next.now - Whole.nearest clock.now)

end Clock

end NamingAdvice
