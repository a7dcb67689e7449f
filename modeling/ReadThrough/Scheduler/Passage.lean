import ReadThrough.Scheduler.Step

/-!
# The passage of time

Time jumps from one due time to the next.  Due are the tasks whose fetch ends
and the ticks of the sweeper.
-/

namespace ReadThrough.Scheduler

variable {Value : Type} [Keyed Value]

/-- The sweeper, as long as somebody holds the cache. -/
def activeSweeper? (scheduler : Scheduler Value) : Option Sweeper :=
  if scheduler.isHeld then scheduler.sweeper else none

/-- The next time at which something is due. -/
def nextDue? (scheduler : Scheduler Value) : Option Nat :=
  (scheduler.tasks.toList.filterMap Stage.wakeAt? ++
    (scheduler.activeSweeper?.map (·.nextTick)).toList).min?

/-- Make the tasks ready whose fetch has ended by now. -/
def wake (scheduler : Scheduler Value) : Scheduler Value :=
  { scheduler with
    ready := scheduler.ready ++
      (List.range scheduler.tasks.size).filter fun task =>
        ((scheduler.tasks[task]?).bind Stage.wakeAt?).any
          (· ≤ scheduler.time) }

/-- One tick: sweep the next shard.  A fault ends the sweep for good. -/
def tick (scheduler : Scheduler Value) : Scheduler Value :=
  match scheduler.activeSweeper? with
  | none => { scheduler with sweeper := none }
  | some sweeper =>
      match scheduler.attempt (Cache.sweep sweeper.nextShard) with
      | (.error _, next) => { next with sweeper := none }
      | (.ok _, next) =>
          { next with
            sweeper := some (sweeper.advance next.cache.shards.size) }

/-- Do what is due now. -/
def fire (settings : Settings) (scheduler : Scheduler Value) :
    Scheduler Value :=
  let ticked :=
    if scheduler.sweeper.any (·.nextTick ≤ scheduler.time) then
      scheduler.tick
    else
      scheduler
  settle settings ticked.wake

/-- Let time pass up to `target`, or until `stop` holds.  At most `limit` due
times are met. -/
def passWithin
    (settings : Settings) (stop : Scheduler Value → Bool) (target : Nat) :
    Nat → Scheduler Value → Scheduler Value
  | 0, scheduler => scheduler
  | limit + 1, scheduler =>
      if stop scheduler then
        scheduler
      else
        match scheduler.nextDue?.filter (· ≤ target) with
        | none => { scheduler with time := max scheduler.time target }
        | some due =>
            passWithin settings stop target limit
              (fire settings
                { scheduler with time := max scheduler.time due })

/-- Wait for a number of milliseconds. -/
def sleep (settings : Settings) (milliseconds : Nat)
    (scheduler : Scheduler Value) : Scheduler Value :=
  passWithin settings (fun _ => false)
    (scheduler.time + Wait.length milliseconds)
    (Wait.length milliseconds + 1) scheduler

/-- Whether a task has ended. -/
def isOver (scheduler : Scheduler Value) (task : TaskId) : Bool :=
  (scheduler.tasks[task]?).all Stage.isOver

/-- Milliseconds after which every task has ended: the sum of what their own
fetches can still take. -/
def remainingDelay (scheduler : Scheduler Value) : Nat :=
  scheduler.tasks.toList.foldr
    (fun stage total => stage.remainingDelay scheduler.time + total) 0

/-- Let time pass until a task has ended. -/
def sleepUntilOver (settings : Settings) (task : TaskId)
    (scheduler : Scheduler Value) : Scheduler Value :=
  passWithin settings (·.isOver task)
    (scheduler.time + scheduler.remainingDelay)
    (scheduler.remainingDelay + 1) scheduler

/-- The verdict of a task that has ended. -/
def verdict? (scheduler : Scheduler Value) (task : TaskId) :
    Option (Verdict Value) :=
  match scheduler.tasks[task]? with
  | some (.over verdict) => some verdict
  | _ => none

end ReadThrough.Scheduler
