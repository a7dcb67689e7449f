/-!
# Durations, instants and deadlines

Durations and instants are counted in nanoseconds.  An instant is an offset
from the start of a run.  Two limits bound what can be written down:

* a duration is at most `Duration.longest`;
* an instant lies before `Instant.horizon`.

`deadline` adds a duration to an instant.  Where the sum would pass the
horizon, it answers an instant from which the horizon is at most one
millisecond away.

Waiting is left to a `Timer`, which counts in whole milliseconds.
-/

namespace ReadThrough

/-- A length of time in nanoseconds. -/
abbrev Duration := Nat

/-- A point in time, in nanoseconds after the start of a run. -/
abbrev Instant := Nat

namespace Duration

/-- Nanoseconds in one second. -/
def perSecond : Nat := 1000000000

/-- Nanoseconds in one millisecond. -/
def perMillisecond : Nat := 1000000

/-- The longest duration that can be written: one nanosecond less than
`2 ^ 64` seconds. -/
def longest : Duration := 18446744073709551616 * perSecond - 1

/-- A whole number of seconds. -/
def ofSeconds (seconds : Nat) : Duration :=
  seconds * perSecond

/-- A whole number of milliseconds. -/
def ofMilliseconds (milliseconds : Nat) : Duration :=
  milliseconds * perMillisecond

/-- Multiplication that stops at `longest`. -/
def scale (duration : Duration) (factor : Nat) : Duration :=
  min (duration * factor) longest

/-- The number of milliseconds that cover a duration. -/
def coveringMilliseconds (duration : Duration) : Nat :=
  (duration + (perMillisecond - 1)) / perMillisecond

end Duration

namespace Instant

/-- The first instant that can no longer be represented, after `2 ^ 63`
seconds. -/
def horizon : Instant := 9223372036854775808 * Duration.perSecond

/-- An instant before the horizon can be represented. -/
def Representable (instant : Instant) : Prop := instant < horizon

instance (instant : Instant) : Decidable (Representable instant) :=
  inferInstanceAs (Decidable (instant < horizon))

/-- Halve the gap between an offset that is known to fit (`low`) and one that
is not (`high`) until at most one millisecond is left of it. -/
def furthestOffset (now : Instant) (low high : Duration) : Duration :=
  if Duration.perMillisecond < high - low then
    let middle := low + (high - low) / 2
    if Representable (now + middle) then
      furthestOffset now middle high
    else
      furthestOffset now low middle
  else
    low
termination_by high - low
decreasing_by all_goals simp only [Duration.perMillisecond] at *; omega

end Instant

/-- A timer tells after how many milliseconds a task goes on that is to wait for
a duration. -/
abbrev Timer := Duration → Nat

/-- The timer waits for whole milliseconds, and no more of them than the
duration takes. -/
def Timer.RoundsUp (timer : Timer) (duration : Duration) : Prop :=
  timer duration = duration.coveringMilliseconds

namespace Wait

/-- The milliseconds that the timer of `length` looks ahead: thirty years of 365
days. -/
def longest : Nat := 30 * 365 * 86400 * 1000

/-- How many milliseconds a wait takes that is to take a number of them, with a
timer that looks no further ahead than `longest`: whatever lies beyond is over
then.  The timer does so also where the end of the wait can be represented: with
an interval of `10 ^ 12` seconds the first sweep comes after 946080000000
milliseconds. -/
def length (milliseconds : Nat) : Nat :=
  min milliseconds longest

end Wait

/-- The instant a duration after `now`, kept before the horizon. -/
def deadline (now : Instant) (after : Duration) : Instant :=
  if Instant.Representable (now + after) then
    now + after
  else
    now + Instant.furthestOffset now 0 after

/-- A sum that can be represented is the deadline itself. -/
theorem deadline_of_representable
    {now : Instant} {after : Duration}
    (fits : Instant.Representable (now + after)) :
    deadline now after = now + after := by
  rw [deadline, if_pos fits]

end ReadThrough
