import ReadThrough.Cache.Upkeep
import ReadThrough.Task

/-!
# The scheduler

The scheduler runs tasks on a cache, one step at a time, in the order in which
they become ready.  Time passes only when nothing is ready.  A sweeper removes
expired entries, one shard at every tick, for as long as somebody holds the
cache.
-/

namespace ReadThrough

open Std (ExtTreeMap)

/-- A flight is a fetch that several calls of one name share.  One of them
leads; the others wait for it in the order of their arrival. -/
structure Flight (Value : Type) where
  /-- The name that is fetched. -/
  name : String
  /-- The task that fetches, if there is one. -/
  leader : Option TaskId
  /-- The tasks that wait, the first to arrive first. -/
  waiting : List TaskId
  /-- What the completed flight gave. -/
  outcome : Option (Except Failure Value)

/-- The background sweep. -/
structure Sweeper where
  /-- Milliseconds between two ticks. -/
  period : Nat
  /-- The time of the next tick. -/
  nextTick : Nat
  /-- The shard that the next tick sweeps. -/
  nextShard : Nat
  deriving DecidableEq, Repr

/-- A cache with the tasks that run on it. -/
structure Scheduler (Value : Type) where
  cache : Cache Value
  /-- Milliseconds that have passed. -/
  time : Nat
  /-- The tasks, in the order of creation. -/
  tasks : Array (Stage Value)
  /-- All flights there ever were. -/
  flights : Array (Flight Value)
  /-- The flight to join for a name. -/
  inFlight : ExtTreeMap String FlightId
  /-- The tasks that can go on, the next one first. -/
  ready : List TaskId
  /-- The calls of fetch functions since the list was last emptied, the oldest
  first. -/
  fetchCalls : Array FetchCall
  /-- Number of handles to the cache that callers hold. -/
  handles : Nat
  /-- The sweeper, unless there is none or it has stopped. -/
  sweeper : Option Sweeper

namespace Sweeper

/-- Milliseconds for which the sweeper waits between two ticks that are to be
an interval apart, with the timer of `Wait.length`. -/
def periodOf : Timer := fun interval =>
  Wait.length interval.coveringMilliseconds

/-- A sweeper that has not swept. -/
def start (period : Nat) : Sweeper :=
  { period, nextTick := period, nextShard := 0 }

/-- The sweeper after a tick in a cache with a number of shards. -/
def advance (sweeper : Sweeper) (shardCount : Nat) : Sweeper :=
  { sweeper with
    nextTick := sweeper.nextTick + sweeper.period
    nextShard := (sweeper.nextShard + 1) % shardCount }

end Sweeper

namespace Scheduler

variable {Value Result : Type}

/-- A scheduler at time zero with one handle to a new cache.  The timer decides
how long its sweeper waits. -/
def startOn
    (timer : Timer) (settings : Settings) (paddings : Nat → List Nat) :
    Scheduler Value :=
  { cache := .empty settings paddings
    time := 0
    tasks := #[]
    flights := #[]
    inFlight := ∅
    ready := []
    fetchCalls := #[]
    handles := 1
    sweeper :=
      if settings.sweeping then some (.start (timer settings.sweepInterval))
      else none }

/-- A new scheduler whose sweeper waits for `Sweeper.periodOf` its interval. -/
def start (settings : Settings) (paddings : Nat → List Nat) :
    Scheduler Value :=
  startOn Sweeper.periodOf settings paddings

/-- Build a cache and its scheduler.  The settings must have no defect, and
sweeping needs somewhere to run. -/
def create
    (settings : Settings) (hasBackground : Bool)
    (paddings : Nat → List Nat) : Except Failure (Scheduler Value) := do
  settings.validate
  if settings.sweeping ∧ ¬ hasBackground then
    throw .runtimeUnavailable
  return start settings paddings

/-! ## Elementary changes -/

/-- Carry out an action on the cache. -/
def attempt
    (scheduler : Scheduler Value) (action : Cache.Action Value Result) :
    Except Fault Result × Scheduler Value :=
  match action.run scheduler.cache with
  | .ok result cache => (.ok result, { scheduler with cache })
  | .error fault cache => (.error fault, { scheduler with cache })

/-- Put a task into a stage. -/
def setStage
    (scheduler : Scheduler Value) (task : TaskId) (stage : Stage Value) :
    Scheduler Value :=
  { scheduler with tasks := scheduler.tasks.setIfInBounds task stage }

/-- End a task. -/
def finish
    (scheduler : Scheduler Value) (task : TaskId)
    (verdict : Verdict Value) : Scheduler Value :=
  scheduler.setStage task (.over verdict)

/-- End a task with a reply or a failure. -/
def answer
    (scheduler : Scheduler Value) (task : TaskId)
    (result : Except Failure (Reply Value)) : Scheduler Value :=
  scheduler.finish task (.returned result)

/-- Add a task that is ready. -/
def spawn (scheduler : Scheduler Value) (stage : Stage Value) :
    Scheduler Value :=
  { scheduler with
    tasks := scheduler.tasks.push stage
    ready := scheduler.ready ++ [scheduler.tasks.size] }

/-- Note that a fetch function was called. -/
def noteCall (scheduler : Scheduler Value) (call : FetchCall) :
    Scheduler Value :=
  { scheduler with fetchCalls := scheduler.fetchCalls.push call }

/-- Whether somebody holds the cache: a caller or a task. -/
def isHeld (scheduler : Scheduler Value) : Bool :=
  decide (0 < scheduler.handles) ||
    scheduler.tasks.any fun stage => !stage.isOver

end Scheduler

end ReadThrough
