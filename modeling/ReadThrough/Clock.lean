import ReadThrough.Fault
import ReadThrough.Time

/-!
# Clocks

A clock keeps an elapsed time that moves only when it is told to.  Its time
source says what a reading shows:

* a manual clock shows the elapsed time;
* a scripted clock shows the readings that were laid down in advance, one
  after the other, and the elapsed time when there are none left;
* a running clock goes on by itself, whatever the elapsed time, and no two of
  its readings are the same.

An instant that cannot be represented cannot be read.
-/

namespace ReadThrough

/-- What the readings of a clock follow. -/
inductive TimeSource where
  /-- Time that goes on by itself. -/
  | running
  /-- The elapsed time. -/
  | manual
  /-- Readings laid down in advance, then the elapsed time. -/
  | scripted
  deriving DecidableEq, Repr

/-- A clock. -/
structure Clock where
  /-- What its readings follow. -/
  source : TimeSource
  /-- The time that has passed as far as the clock was told. -/
  elapsed : Duration
  /-- Readings laid down in advance, the next one first. -/
  script : List Instant
  /-- The latest reading of a running clock. -/
  latest : Instant
  deriving DecidableEq, Repr

namespace Clock

/-- A clock that has not moved. -/
def start (source : TimeSource) : Clock :=
  { source, elapsed := 0, script := [], latest := 0 }

/-- An instant as a reading, provided that it can be represented. -/
def reading (instant : Instant) : Except Fault Instant :=
  if Instant.Representable instant then .ok instant
  else .error .instantOverflow

/-- The elapsed time as a reading. -/
def ordinary (clock : Clock) : Except Fault Instant :=
  reading clock.elapsed

/-- The next reading, and the clock after it.  Between two readings a running
clock goes on by a nanosecond. -/
def read (clock : Clock) : Except Fault Instant × Clock :=
  match clock.source, clock.script with
  | .running, _ =>
      (reading (clock.latest + 1), { clock with latest := clock.latest + 1 })
  | .scripted, instant :: rest =>
      (reading instant, { clock with script := rest })
  | .scripted, [] => (clock.ordinary, clock)
  | .manual, _ => (clock.ordinary, clock)

/-- Every reading of a running clock is later than the one before. -/
theorem latest_read_of_running
    {clock : Clock} (runs : clock.source = .running) :
    clock.read.2.latest = clock.latest + 1 := by
  simp only [read, runs]

/-- The clock after a further duration, which must leave the elapsed time a
duration. -/
def advance (clock : Clock) (duration : Duration) : Except Fault Clock :=
  if clock.elapsed + duration ≤ Duration.longest then
    .ok { clock with elapsed := clock.elapsed + duration }
  else
    .error .durationOverflow

/-- The clock with further readings laid down behind the present ones. -/
def layDown (clock : Clock) (readings : List Instant) : Clock :=
  { clock with script := clock.script ++ readings }

end Clock

end ReadThrough
