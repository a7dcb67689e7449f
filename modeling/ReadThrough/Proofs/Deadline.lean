import ReadThrough.Time

/-!
# Deadlines at the end of time

Where a sum would pass the horizon, its deadline is found in a `Gap` between an
offset that fits and one that does not.  Every halving leaves a gap of half the
width.  When at most a millisecond is left of it, the lower end is an offset
from which the horizon is at most a millisecond away.

`deadlineWithin` is the same calculation with limits: sums and differences must
be durations, instants must be representable, and the gap may be looked at so
many times and no more.  `deadline_saturates` says that the limits are never
met.
-/

namespace ReadThrough

theorem le_deadline (now : Instant) (after : Duration) :
    now ≤ deadline now after := by
  rw [deadline]
  split
  · exact Nat.le_add_right now after
  · exact Nat.le_add_right now _

/-! ## Arithmetic with limits -/

namespace Duration

/-- The sum of two durations, if it is a duration. -/
def plus? (left right : Duration) : Option Duration :=
  if left + right ≤ longest then some (left + right) else none

/-- What is left of a duration after another one, if this one is not longer. -/
def minus? (left right : Duration) : Option Duration :=
  if right ≤ left then some (left - right) else none

theorem plus?_of_le {left right : Duration} (short : left + right ≤ longest) :
    left.plus? right = some (left + right) :=
  if_pos short

theorem minus?_of_le {left right : Duration} (ordered : right ≤ left) :
    left.minus? right = some (left - right) :=
  if_pos ordered

end Duration

namespace Instant

/-- The instant a duration later, if it can be represented. -/
def plus? (instant : Instant) (duration : Duration) : Option Instant :=
  if Representable (instant + duration) then some (instant + duration)
  else none

theorem isSome_plus? {instant : Instant} {duration : Duration} :
    (instant.plus? duration).isSome = true ↔
      Representable (instant + duration) := by
  rw [plus?]
  split
  next fits => simp [fits]
  next tooFar => simp [tooFar]

/-- The furthest offset as `furthestOffset` finds it, with arithmetic that has
limits and with at most a number of looks at the gap. -/
def furthestOffsetWithin (now : Instant) :
    Nat → Duration → Duration → Option Duration
  | 0, _, _ => none
  | looks + 1, low, high => do
      let gap ← Duration.minus? high low
      if Duration.perMillisecond < gap then
        let middle ← Duration.plus? low (gap / 2)
        if (plus? now middle).isSome then
          furthestOffsetWithin now looks middle high
        else
          furthestOffsetWithin now looks low middle
      else
        return low

/-! ## Gaps -/

/-- The middle of a gap. -/
theorem middle_le {low high : Nat} (ordered : low ≤ high) :
    low + (high - low) / 2 ≤ high := by
  omega

/-- Both halves of a gap have half its width. -/
theorem half_narrow {low high width : Nat} (narrow : high - low ≤ width * 2) :
    high - (low + (high - low) / 2) ≤ width ∧
      low + (high - low) / 2 - low ≤ width := by
  omega

/-- Of two offsets from an instant the lower one fits and the upper one does
not. -/
structure Gap (now : Instant) (low high : Duration) : Prop where
  ordered : low ≤ high
  fits : Representable (now + low)
  tooFar : ¬ Representable (now + high)

/-- Half of a gap is a gap: the upper half if its lower end fits, the lower one
otherwise. -/
theorem Gap.halves
    {now : Instant} {low high : Duration} (gap : Gap now low high) :
    let middle := low + (high - low) / 2
    (Representable (now + middle) → Gap now middle high) ∧
      (¬ Representable (now + middle) → Gap now low middle) := by
  intro middle
  exact ⟨fun further => ⟨middle_le gap.ordered, further, gap.tooFar⟩,
    fun tooFar => ⟨Nat.le_add_right _ _, gap.fits, tooFar⟩⟩

/-- What a gap is narrowed down to fits, and a millisecond later nothing
does. -/
theorem Gap.narrows
    {now : Instant} {low high : Duration} (gap : Gap now low high) :
    Representable (now + furthestOffset now low high) ∧
      ¬ Representable
        (now + furthestOffset now low high + Duration.perMillisecond) := by
  induction low, high using furthestOffset.induct now with
  | case1 low high wide middle further inductionHypothesis =>
      rw [furthestOffset, if_pos wide, if_pos further]
      exact inductionHypothesis (gap.halves.1 further)
  | case2 low high wide middle tooFar inductionHypothesis =>
      rw [furthestOffset, if_pos wide, if_neg tooFar]
      exact inductionHypothesis (gap.halves.2 tooFar)
  | case3 low high narrow =>
      rw [furthestOffset, if_neg narrow]
      refine ⟨gap.fits, fun fits => gap.tooFar ?_⟩
      have reached : high ≤ low + Duration.perMillisecond :=
        Nat.sub_le_iff_le_add'.mp (Nat.not_lt.mp narrow)
      rw [Nat.add_assoc] at fits
      exact Nat.lt_of_le_of_lt (Nat.add_le_add_left reached now) fits

/-- No step of the search runs over a limit.  With every further look the gap
may be twice as wide. -/
theorem furthestOffsetWithin_eq
    (now : Instant) {looks : Nat} {low high : Duration} (ordered : low ≤ high)
    (short : high ≤ Duration.longest)
    (narrow : high - low ≤ Nat.pow 2 looks * Duration.perMillisecond) :
    furthestOffsetWithin now (looks + 1) low high =
      some (furthestOffset now low high) := by
  induction looks generalizing low high with
  | zero =>
      have narrowed : ¬ Duration.perMillisecond < high - low := by
        rw [Nat.not_lt]
        simpa using narrow
      rw [furthestOffsetWithin, Duration.minus?_of_le ordered,
        furthestOffset, if_neg narrowed]
      exact if_neg narrowed
  | succ looks inductionHypothesis =>
      have halved : high - low ≤
          Nat.pow 2 looks * Duration.perMillisecond * 2 := by
        rw [Nat.mul_right_comm]
        exact narrow
      obtain ⟨upper, lower⟩ := half_narrow halved
      have inside : low + (high - low) / 2 ≤ high := middle_le ordered
      rw [furthestOffsetWithin, Duration.minus?_of_le ordered,
        furthestOffset]
      by_cases wide : Duration.perMillisecond < high - low
      · simp only [Option.bind_eq_bind, Option.bind_some, if_pos wide,
          Duration.plus?_of_le (Nat.le_trans inside short), isSome_plus?]
        split
        · exact inductionHypothesis inside short upper
        · exact inductionHypothesis (Nat.le_add_right _ _)
            (Nat.le_trans inside short) lower
      · simp only [Option.bind_eq_bind, Option.bind_some, if_neg wide]
        rfl

end Instant

/-- The deadline as `deadline` finds it, with arithmetic that has limits and
with at most a number of looks at the gap. -/
def deadlineWithin
    (looks : Nat) (now : Instant) (after : Duration) : Option Instant :=
  match now.plus? after with
  | some sum => some sum
  | none => do
      let offset ← Instant.furthestOffsetWithin now looks 0 after
      now.plus? offset

/-- No deadline passes the horizon. -/
theorem representable_deadline
    {now : Instant} (fits : Instant.Representable now) (after : Duration) :
    Instant.Representable (deadline now after) := by
  rw [deadline]
  split
  next sum => exact sum
  next tooFar =>
    exact (Instant.Gap.mk (Nat.zero_le after) fits tooFar).narrows.1

/-- A deadline is found with seventy-five looks at the gap, and no step on the
way runs over a limit.  It is the sum if that can be represented.  Otherwise it
can be represented and does not lie before `now`, and no instant that is more
than a millisecond later can be represented. -/
theorem deadline_saturates
    {now : Instant} (readable : Instant.Representable now)
    {after : Duration} (expressible : after ≤ Duration.longest) :
    deadlineWithin 75 now after = some (deadline now after) ∧
      (Instant.Representable (now + after) →
        deadline now after = now + after) ∧
      (¬ Instant.Representable (now + after) →
        Instant.Representable (deadline now after) ∧
          now ≤ deadline now after ∧
            ∀ later, deadline now after + Duration.perMillisecond < later →
              ¬ Instant.Representable later) := by
  refine ⟨?found, deadline_of_representable, ?saturated⟩
  case found =>
    have widest : after - 0 ≤ Nat.pow 2 74 * Duration.perMillisecond :=
      Nat.le_trans expressible (by decide)
    have represented := representable_deadline readable after
    rw [deadlineWithin, deadline] at *
    by_cases sum : Instant.Representable (now + after)
    · rw [Instant.plus?, if_pos sum, if_pos sum]
    · rw [if_neg sum] at represented
      rw [Instant.plus?, if_neg sum, if_neg sum,
        Instant.furthestOffsetWithin_eq now (Nat.zero_le after) expressible
          widest]
      exact if_pos represented
  case saturated =>
    intro tooFar
    have gap : Instant.Gap now 0 after := ⟨Nat.zero_le after, readable, tooFar⟩
    refine ⟨representable_deadline readable after, le_deadline now after,
      fun later late represented => ?_⟩
    rw [deadline, if_neg tooFar] at late
    exact gap.narrows.2 (Nat.lt_trans late represented)

/-- A second after the start of a run the longest duration leads past the
horizon.  Its deadline is the last instant before the horizon. -/
theorem deadline_saturates_longest :
    Instant.Representable Duration.perSecond ∧
      ¬ Instant.Representable (Duration.perSecond + Duration.longest) ∧
        deadline Duration.perSecond Duration.longest = Instant.horizon - 1 ∧
          ∀ later, Instant.horizon - 1 + Duration.perMillisecond < later →
            ¬ Instant.Representable later := by
  have readable : Instant.Representable Duration.perSecond := by decide
  have tooFar :
      ¬ Instant.Representable (Duration.perSecond + Duration.longest) := by
    decide
  have found : deadlineWithin 75 Duration.perSecond Duration.longest =
      some (Instant.horizon - 1) := by decide +kernel
  obtain ⟨within, _, saturated⟩ :=
    deadline_saturates readable (Nat.le_refl Duration.longest)
  have last := Option.some.inj (within.symm.trans found)
  obtain ⟨_, _, none⟩ := saturated tooFar
  rw [last] at none
  exact ⟨readable, tooFar, last, none⟩

end ReadThrough
